import KixScript.Text.Numeral
import KixScript.Text.Quoted

/-!
# Faults of TOML documents

Why a document cannot be read, and where reading stopped. A place is kept as the number of
characters that were left to read there.
-/

namespace KixScript.Toml

/-- The keys from the top of a document down to a value. -/
abbrev KeyPath := List String

/-- A path as a fault shows it. -/
def showPath : KeyPath → String
  | [key] => "(" ++ quoted key ++ ",)"
  | path => "(" ++ ", ".intercalate (path.map quoted) ++ ")"

/-- What is wrong. -/
inductive Cause where
  | invalidStatement
  | invalidKey
  | equalsExpected
  | invalidValue
  | lineEndExpected
  | tableEndExpected
  | tablesEndExpected
  | overwrite
  | declaredTwice (path : KeyPath)
  | immutable (path : KeyPath)
  | redefined (path : KeyPath)
  | duplicateKey (key : String)
  | unclosedArray
  | unclosedTable
  | unterminatedString
  | markExpected (mark : String)
  | invalidCharacter (c : Char)
  | illegalCharacter (c : Char)
  | unescapedBackslash
  | invalidHexadecimal
  | notACharacter
  /-- The calendar has no such day. -/
  | invalidDate
  /-- A decimal whole number has more digits than are converted. -/
  | tooManyDigits (count : Nat)
  /-- Arrays and tables are nested too deep. -/
  | tooDeep
  deriving DecidableEq, Repr

/-- The text of a cause. -/
def Cause.message : Cause → String
  | invalidStatement => "Invalid statement"
  | invalidKey => "Invalid initial character for a key part"
  | equalsExpected => "Expected '=' after a key in a key/value pair"
  | invalidValue => "Invalid value"
  | lineEndExpected => "Expected newline or end of document after a statement"
  | tableEndExpected => "Expected ']' at the end of a table declaration"
  | tablesEndExpected => "Expected ']]' at the end of an array declaration"
  | overwrite => "Cannot overwrite a value"
  | declaredTwice path => "Cannot declare " ++ showPath path ++ " twice"
  | immutable path => "Cannot mutate immutable namespace " ++ showPath path
  | redefined path => "Cannot redefine namespace " ++ showPath path
  | duplicateKey key => "Duplicate inline table key " ++ quoted key
  | unclosedArray => "Unclosed array"
  | unclosedTable => "Unclosed inline table"
  | unterminatedString => "Unterminated string"
  | markExpected mark => "Expected " ++ quoted mark
  | invalidCharacter c => "Found invalid character " ++ quoted (String.singleton c)
  | illegalCharacter c => "Illegal character " ++ quoted (String.singleton c)
  | unescapedBackslash => "Unescaped '\\' in a string"
  | invalidHexadecimal => "Invalid hex value"
  | notACharacter => "Escaped character is not a Unicode scalar value"
  | invalidDate => "Invalid date or datetime"
  | tooManyDigits count => tooManyDigitsMessage s!": value has {count} digits"
  | tooDeep => "maximum recursion depth exceeded"

/-- A cause, and the number of characters left where it arose. -/
structure Fault where
  cause : Cause
  left : Nat
  deriving DecidableEq, Repr

/-- A place by line and column, both counted from one. -/
def showPlace (document : List Char) (place : Nat) : String :=
  if place < document.length then
    let before := document.take place
    let column := (before.reverse.takeWhile (· != '\n')).length + 1
    "line " ++ toString (before.count '\n' + 1) ++ ", column " ++ toString column
  else "end of document"

/-- The text of a fault in its document. -/
def Fault.message (fault : Fault) (document : List Char) : String :=
  fault.cause.message ++ " (at " ++ showPlace document (document.length - fault.left) ++ ")"

/-- Why the fields of a document cannot be had. -/
inductive ReadError where
  /-- The document is not well formed. -/
  | malformed (message : String)
  /-- A number is too large to be converted. -/
  | tooLarge (message : String)
  /-- Values are nested too deep. -/
  | tooDeep (message : String)
  deriving DecidableEq, Repr

/-- What a fault in a document means for its reader. -/
def Fault.toReadError (fault : Fault) (document : List Char) : ReadError :=
  match fault.cause with
  | .tooManyDigits _ => .tooLarge fault.cause.message
  | .tooDeep => .tooDeep fault.cause.message
  | _ => .malformed (fault.message document)

end KixScript.Toml

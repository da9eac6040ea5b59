import KixScript.Config.Toml.Document
import KixScript.Config.Toml.Moment
import KixScript.Number.Shortest

/-!
# Reading TOML

The reader for configuration files. Every reader takes the text that is left and returns a value
with what is left behind it, so a fault is placed by the length of the rest.
-/

namespace KixScript.Toml

/-- A fault before `rest`. -/
def refuse {α : Type} (cause : Cause) (rest : List Char) : Except Fault α :=
  throw { cause, left := rest.length }

/-- The result of a change to a document, whose fault is placed before `rest`. -/
def placeCause {α : Type} (rest : List Char) (result : Except Cause α) : Except Fault α :=
  result.mapError fun cause => { cause, left := rest.length }

/-- Blanks between the parts of a statement. -/
def isGap (c : Char) : Bool :=
  c == ' ' || c == '\t'

/-- The text behind leading blanks. -/
def skipGap (text : List Char) : List Char :=
  text.dropWhile isGap

/-- Characters of a key that is not quoted. -/
def isBareKey (c : Char) : Bool :=
  c.isAlphanum || c == '-' || c == '_'

/-- Control characters, which may stand nowhere but as tabs. -/
def isControl (c : Char) : Bool :=
  (c.toNat < 0x20 || c.toNat == 0x7F) && c != '\t'

/-- Control characters that may not stand in a string; one of several lines may hold line feeds. -/
def isIllegal (multiline : Bool) (c : Char) : Bool :=
  isControl c && !(multiline && c == '\n')

/-- Finds the first control character of a text and refuses it. `behind` follows the text. -/
def refuseControl (multiline : Bool) (behind : List Char) : List Char → Except Fault Unit
  | [] => return ()
  | c :: rest =>
    if isIllegal multiline c then
      throw { cause := .invalidCharacter c, left := rest.length + 1 + behind.length }
    else refuseControl multiline behind rest

/-- The text behind a comment, if one begins here. -/
def skipComment : List Char → Except Fault (List Char)
  | '#' :: text => do
    let behind := text.dropWhile (· != '\n')
    refuseControl false behind (text.takeWhile (· != '\n'))
    return behind
  | text => return text

/-- The text behind blanks, line feeds and comments; `fuel` bounds the number of comments. -/
def skipLines : Nat → List Char → Except Fault (List Char)
  | 0, text => return text
  | fuel + 1, text => do
    let behind := text.dropWhile fun c => isGap c || c == '\n'
    match behind with
    | '#' :: _ => skipLines fuel (← skipComment behind)
    | _ => return behind

/-! ## Strings -/

/-- The value of a hexadecimal digit. -/
def hexDigit? (c : Char) : Option Nat :=
  if '0' ≤ c && c ≤ '9' then some (c.toNat - '0'.toNat)
  else if 'a' ≤ c && c ≤ 'f' then some (c.toNat - 'a'.toNat + 10)
  else if 'A' ≤ c && c ≤ 'F' then some (c.toNat - 'A'.toNat + 10)
  else none

/-- The number that digits of a base write. -/
def numberOf (base : Nat) (digits : List Nat) : Nat :=
  digits.foldl (fun value digit => value * base + digit) 0

/-- The character whose code has `count` hexadecimal digits. -/
def readCode (count : Nat) (text : List Char) : Except Fault (List Char × List Char) :=
  match (text.take count).mapM hexDigit? with
  | some digits =>
    let code := numberOf 16 digits
    let rest := text.drop count
    if digits.length ≠ count then refuse .invalidHexadecimal text
    else if code.isValidChar then return ([Char.ofNat code], rest)
    else refuse .notACharacter rest
  | none => refuse .invalidHexadecimal text

/-- What is written behind a backslash. In a string of several lines, a backslash at the end of a
line takes away the line end and the blanks and line ends behind it. -/
def readEscape (multiline : Bool) (text : List Char) : Except Fault (List Char × List Char) :=
  let blankRun (rest : List Char) := rest.dropWhile fun c => isGap c || c == '\n'
  match text with
  | 'b' :: rest => return (['\x08'], rest)
  | 't' :: rest => return (['\t'], rest)
  | 'n' :: rest => return (['\n'], rest)
  | 'f' :: rest => return (['\x0c'], rest)
  | 'r' :: rest => return (['\r'], rest)
  | '"' :: rest => return (['"'], rest)
  | '\\' :: rest => return (['\\'], rest)
  | 'u' :: rest => readCode 4 rest
  | 'U' :: rest => readCode 8 rest
  | '\n' :: rest =>
    if multiline then return ([], blankRun rest) else refuse .unescapedBackslash rest
  | c :: rest =>
    if multiline && isGap c then
      match skipGap rest with
      | [] => return ([], [])
      | '\n' :: behind => return ([], blankRun behind)
      | behind => refuse .unescapedBackslash behind
    else refuse .unescapedBackslash rest
  | [] => refuse .unescapedBackslash []

/-- The rest of a string in double quotes; `fuel` bounds its length. -/
def readBasic (multiline : Bool) : Nat → List Char → Except Fault (List Char × List Char)
  | 0, text => refuse .unterminatedString text
  | fuel + 1, text => do
    match text with
    | [] => refuse .unterminatedString []
    | '"' :: rest =>
      if !multiline then return ([], rest)
      else if ['"', '"'].isPrefixOf rest then return ([], rest.drop 2)
      else
        let (value, behind) ← readBasic multiline fuel rest
        return ('"' :: value, behind)
    | '\\' :: rest =>
      let (escaped, behind) ← readEscape multiline rest
      let (value, behind) ← readBasic multiline fuel behind
      return (escaped ++ value, behind)
    | c :: rest =>
      if isIllegal multiline c then refuse (.illegalCharacter c) text
      else
        let (value, behind) ← readBasic multiline fuel rest
        return (c :: value, behind)

/-- Splits a text before the first `mark`, and drops the mark. -/
def splitAt? (mark : List Char) : List Char → Option (List Char × List Char)
  | [] => none
  | c :: rest =>
    if mark.isPrefixOf (c :: rest) then some ([], (c :: rest).drop mark.length)
    else (splitAt? mark rest).map fun (before, behind) => (c :: before, behind)

/-- The rest of a string that ends with `mark` and has no escapes. -/
def readLiteral (multiline : Bool) (mark text : List Char) :
    Except Fault (List Char × List Char) := do
  match splitAt? mark text with
  | none => refuse (.markExpected (String.ofList mark)) []
  | some (value, behind) =>
    refuseControl multiline (mark ++ behind) value
    return (value, behind)

/-- One or two more quotes may directly precede the three that end a string of several lines. -/
def readExtraQuotes (quote : Char) (value behind : List Char) : List Char × List Char :=
  let extra := (behind.takeWhile (· == quote)).take 2
  (value ++ extra, behind.drop extra.length)

/-- A string of several lines, behind its three quotes. A line feed there does not count. -/
def readMultiline (quote : Char) (text : List Char) : Except Fault (List Char × List Char) := do
  let text := if text.head? = some '\n' then text.drop 1 else text
  let (value, behind) ←
    if quote = '"' then readBasic true (text.length + 1) text
    else readLiteral true [quote, quote, quote] text
  return readExtraQuotes quote value behind

/-! ## Keys -/

/-- One part of a key. -/
def readKeyPart (text : List Char) : Except Fault (String × List Char) := do
  match text with
  | '\x27' :: rest =>
    let (part, behind) ← readLiteral false ['\x27'] rest
    return (String.ofList part, behind)
  | '"' :: rest =>
    let (part, behind) ← readBasic false (rest.length + 1) rest
    return (String.ofList part, behind)
  | c :: _ =>
    if isBareKey c then
      return (String.ofList (text.takeWhile isBareKey), text.dropWhile isBareKey)
    else refuse .invalidKey text
  | [] => refuse .invalidKey []

/-- A key of parts divided by dots, and the text behind the blanks that follow it; `fuel` bounds the
number of parts. -/
def readKey : Nat → List Char → Except Fault (KeyPath × List Char)
  | 0, text => refuse .invalidKey text
  | fuel + 1, text => do
    let (part, behind) ← readKeyPart text
    match skipGap behind with
    | '.' :: rest =>
      let (key, behind) ← readKey fuel (skipGap rest)
      return (part :: key, behind)
    | behind => return ([part], behind)

/-- A key and the equals sign behind it. -/
def readAssignedKey (text : List Char) : Except Fault (KeyPath × List Char) := do
  let (key, behind) ← readKey (text.length + 1) text
  match behind with
  | '=' :: rest => return (key, skipGap rest)
  | _ => refuse .equalsExpected behind

/-! ## Numbers -/

/-- The digits that follow a digit; before each, a single underscore may stand. -/
def readMoreDigits (digit? : Char → Option Nat) : List Char → List Nat × List Char
  | [] => ([], [])
  | '_' :: c :: rest =>
    match digit? c with
    | some digit =>
      let (digits, behind) := readMoreDigits digit? rest
      (digit :: digits, behind)
    | none => ([], '_' :: c :: rest)
  | c :: rest =>
    match digit? c with
    | some digit =>
      let (digits, behind) := readMoreDigits digit? rest
      (digit :: digits, behind)
    | none => ([], c :: rest)

/-- The digits at the head of a text. -/
def readDigits (digit? : Char → Option Nat) : List Char → List Nat × List Char
  | [] => ([], [])
  | c :: rest =>
    match digit? c with
    | some digit =>
      let (digits, behind) := readMoreDigits digit? rest
      (digit :: digits, behind)
    | none => ([], c :: rest)

/-- The value of a digit of a base up to sixteen. -/
def digitOf? (base : Nat) (c : Char) : Option Nat :=
  (hexDigit? c).filter (· < base)

/-- A whole number in base 16, 8 or 2, behind its zero. -/
def readBased? (text : List Char) : Option (Nat × List Char) :=
  let digits (base : Nat) (rest : List Char) : Option (Nat × List Char) :=
    match readDigits (digitOf? base) rest with
    | ([], _) => none
    | (digits, behind) => some (numberOf base digits, behind)
  match text with
  | 'x' :: rest => digits 16 rest
  | 'o' :: rest => digits 8 rest
  | 'b' :: rest => digits 2 rest
  | _ => none

/-- The whole part of a decimal number: a zero alone, or digits that begin with another one. -/
def readWhole? (text : List Char) : Option (List Nat × List Char) :=
  match text with
  | '0' :: rest => some ([0], rest)
  | _ =>
    match readDigits (digitOf? 10) text with
    | ([], _) => none
    | found => some found

/-- The digits behind a point; none if no digit follows the point. -/
def readPart? (text : List Char) : Option (List Nat × List Char) :=
  match text with
  | '.' :: rest =>
    match readDigits (digitOf? 10) rest with
    | ([], _) => none
    | found => some found
  | _ => none

/-- An exponent; none if no digit follows its mark and sign. -/
def readExponent? (text : List Char) : Option (Int × List Char) :=
  let digits (rest : List Char) : Option (Nat × List Char) :=
    match readDigits (digitOf? 10) rest with
    | ([], _) => none
    | (digits, behind) => some (numberOf 10 digits, behind)
  let signed : List Char → Option (Int × List Char)
    | '-' :: rest => (digits rest).map fun (value, behind) => (-(value : Int), behind)
    | '+' :: rest => (digits rest).map fun (value, behind) => ((value : Int), behind)
    | rest => (digits rest).map fun (value, behind) => ((value : Int), behind)
  match text with
  | 'e' :: rest => signed rest
  | 'E' :: rest => signed rest
  | _ => none

/-- The whole number that decimal digits write. -/
def wholeNumber (negative : Bool) (digits : List Nat) : Except Cause Value :=
  if digitLimit < digits.length then .error (.tooManyDigits digits.length)
  else
    let value : Int := numberOf 10 digits
    .ok (.integer (if negative then -value else value))

/-- A decimal number behind its sign. -/
def readDecimal? (negative : Bool) (text : List Char) :
    Option (Except Cause Value × List Char) := do
  let (whole, behind) ← readWhole? text
  let (part, behindPart) := (readPart? behind).getD ([], behind)
  let exponent := readExponent? behindPart
  if part.isEmpty && exponent.isNone then return (wholeNumber negative whole, behind)
  else
    let (power, behind) := exponent.getD (0, behindPart)
    let decimal : Decimal := ⟨numberOf 10 (whole ++ part), power - part.length⟩
    return (.ok (.float ((if negative then "-" else "") ++ decimal.nearestText)), behind)

/-- An infinity, or what is no number. -/
def readSpecial? (negative : Bool) (text : List Char) : Option (Except Cause Value × List Char) :=
  match text with
  | 'i' :: 'n' :: 'f' :: rest => some (.ok (.float (if negative then "-inf" else "inf")), rest)
  | 'n' :: 'a' :: 'n' :: rest => some (.ok (.float "nan"), rest)
  | _ => none

/-- A number of any kind. Only decimal ones can have too many digits. -/
def readNumber? (text : List Char) : Option (Except Cause Value × List Char) :=
  let based : Option (Except Cause Value × List Char) :=
    match text with
    | '0' :: rest => (readBased? rest).map fun (value, behind) => (.ok (.integer value), behind)
    | _ => none
  let signed (negative : Bool) (rest : List Char) : Option (Except Cause Value × List Char) :=
    (readDecimal? negative rest).or (readSpecial? negative rest)
  based.or <|
    match text with
    | '-' :: rest => signed true rest
    | '+' :: rest => signed false rest
    | _ => signed false text

/-! ## Values -/

/-- A date, a time or a number. What could be read as a date is one. -/
def readMeasure (text : List Char) : Except Fault (Value × List Char) :=
  match readMoment? text with
  | some (moment, behind) =>
    if moment.isValid then return (.moment moment, behind) else refuse .invalidDate text
  | none =>
    match readNumber? text with
    | some (value, behind) => return (← placeCause text value, behind)
    | none => refuse .invalidValue text

/-- A value that holds no others. -/
def readPlain (text : List Char) : Except Fault (Value × List Char) := do
  let string (result : List Char × List Char) : Value × List Char :=
    (.text (String.ofList result.1), result.2)
  match text with
  | '"' :: '"' :: '"' :: rest => return string (← readMultiline '"' rest)
  | '"' :: rest => return string (← readBasic false (rest.length + 1) rest)
  | '\x27' :: '\x27' :: '\x27' :: rest => return string (← readMultiline '\x27' rest)
  | '\x27' :: rest => return string (← readLiteral false ['\x27'] rest)
  | 't' :: 'r' :: 'u' :: 'e' :: rest => return (.boolean true, rest)
  | 'f' :: 'a' :: 'l' :: 's' :: 'e' :: rest => return (.boolean false, rest)
  | _ => readMeasure text

/-- An inline table as far as it has been read. -/
structure InlineTable where
  fields : Fields
  sealed : List KeyPath

/-- Gives a value to a key of an inline table. -/
def InlineTable.assign (table : InlineTable) (key : KeyPath) (value : Value) :
    Except Cause InlineTable := do
  if liesUnder key table.sealed then throw (.immutable key)
  let stem := key.getLast?.getD ""
  let fields ← changeAt false (addField stem value (.duplicateKey stem)) key.dropLast table.fields
  return { fields, sealed := if isCompound value then key :: table.sealed else table.sealed }

/-- The room that is left inside of an array, which takes two and needs one more to be read. -/
def roomInArray? (room : Nat) : Option Nat :=
  if 3 ≤ room then some (room - 2) else none

/-- The room that is left inside of a table, which takes three and needs two more to be read. -/
def roomInTable? (room : Nat) : Option Nat :=
  if 5 ≤ room then some (room - 3) else none

mutual

/-- A value; `fuel` bounds the depth of calls. A value reads a bracket before it calls for what is
inside, and an item or field reads a comma before it calls for the next one. So every other call is
nearer to the end of the text, and two calls for each character and one more are enough. `room` is
what is left for nesting. -/
def readValue : Nat → Nat → List Char → Except Fault (Value × List Char)
  | 0, _, text => refuse .invalidValue text
  | fuel + 1, room, text => do
    match text with
    | '[' :: rest =>
      let some room := roomInArray? room | refuse .tooDeep text
      match ← skipLines rest.length rest with
      | ']' :: behind => return (.list [], behind)
      | rest =>
        let (items, behind) ← readItems fuel room rest
        return (.list items, behind)
    | '\x7b' :: rest =>
      let some room := roomInTable? room | refuse .tooDeep text
      match skipGap rest with
      | '\x7d' :: behind => return (.table [], behind)
      | rest =>
        let (fields, behind) ← readFields fuel room { fields := [], sealed := [] } rest
        return (.table fields, behind)
    | _ => readPlain text

/-- The items of an array, one at least, and what follows its bracket. -/
def readItems : Nat → Nat → List Char → Except Fault (List Value × List Char)
  | 0, _, text => refuse .unclosedArray text
  | fuel + 1, room, text => do
    let (item, behind) ← readValue fuel room text
    match ← skipLines behind.length behind with
    | ']' :: behind => return ([item], behind)
    | ',' :: rest =>
      match ← skipLines rest.length rest with
      | ']' :: behind => return ([item], behind)
      | rest =>
        let (items, behind) ← readItems fuel room rest
        return (item :: items, behind)
    | behind => refuse .unclosedArray behind

/-- The fields of an inline table, one at least, and what follows its brace. -/
def readFields : Nat → Nat → InlineTable → List Char → Except Fault (Fields × List Char)
  | 0, _, _, text => refuse .unclosedTable text
  | fuel + 1, room, table, text => do
    let (key, rest) ← readAssignedKey text
    let (value, behind) ← readValue fuel room rest
    let table ← placeCause behind (table.assign key value)
    match skipGap behind with
    | '\x7d' :: behind => return (table.fields, behind)
    | ',' :: rest => readFields fuel room table (skipGap rest)
    | behind => refuse .unclosedTable behind

end

/-! ## Statements -/

/-- A header behind its brackets: its path, once the document accepts it, and its closing mark. -/
def readHeader (accept : KeyPath → Except Cause Document) (mark : List Char) (missing : Cause)
    (text : List Char) : Except Fault (Document × List Char) := do
  let (path, behind) ← readKey (text.length + 1) (skipGap text)
  let document ← placeCause behind (accept path)
  if mark.isPrefixOf behind then return (document, behind.drop mark.length)
  else refuse missing behind

/-- A key, its value, and the document with them. `room` is what there is for nesting. -/
def readAssignment (room : Nat) (document : Document) (text : List Char) :
    Except Fault (Document × List Char) := do
  let (key, rest) ← readAssignedKey text
  let (value, behind) ← readValue (2 * rest.length + 1) room rest
  let document ← placeCause behind (document.assign key value)
  return (document, behind)

/-- One statement, if there is one before the end of the line. -/
def readStatement (room : Nat) (document : Document) (text : List Char) :
    Except Fault (Document × List Char) :=
  match text with
  | '[' :: '[' :: rest => readHeader document.appendTable [']', ']'] .tablesEndExpected rest
  | '[' :: rest => readHeader document.openTable [']'] .tableEndExpected rest
  | '#' :: _ => return (document, text)
  | '"' :: _ => readAssignment room document text
  | '\x27' :: _ => readAssignment room document text
  | c :: _ => if isBareKey c then readAssignment room document text else refuse .invalidStatement text
  | [] => return (document, [])

/-- The rest of a document; `fuel` bounds the number of its lines. -/
def readStatements (room : Nat) : Nat → Document → List Char → Except Fault Document
  | 0, document, _ => return document
  | fuel + 1, document, text => do
    match skipGap text with
    | [] => return document
    | '\n' :: rest => readStatements room fuel document rest
    | text =>
      let (document, behind) ← readStatement room document text
      match ← skipComment (skipGap behind) with
      | [] => return document
      | '\n' :: rest => readStatements room fuel document rest
      | rest => refuse .lineEndExpected rest

/-- A text with each carriage return before a line feed taken away. -/
def unifyLineEnds : List Char → List Char
  | '\r' :: '\n' :: rest => '\n' :: unifyLineEnds rest
  | c :: rest => c :: unifyLineEnds rest
  | [] => []

/-- The fields of a document, where `room` is what there is for nesting. -/
def read (room : Nat) (source : String) : Except ReadError Fields :=
  let text := unifyLineEnds source.toList
  match readStatements room (text.length + 1) .empty text with
  | .ok document => .ok document.fields
  | .error fault => .error (fault.toReadError text)

end KixScript.Toml

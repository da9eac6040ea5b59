import KixScript.Calendar
import KixScript.Text.Numeral
import KixScript.Text.Quoted

/-!
# Settings

The values that a configuration can hold, and the one setting that is read from them: the number of
columns by which each level is indented.
-/

namespace KixScript

/-- A value as a configuration or a client gives it. -/
inductive Value where
  | null
  | boolean (value : Bool)
  | integer (value : Int)
  /-- A floating-point number, by its shortest decimal text. -/
  | float (text : String)
  | text (value : String)
  | moment (value : Moment)
  | list (items : List Value)
  | table (fields : List (String × Value))
  deriving Inhabited, Repr

namespace Value

mutual

/-- The printed form of a value. -/
def print : Value → String
  | null => "None"
  | boolean true => "True"
  | boolean false => "False"
  | integer value => toString value
  | float digits => digits
  | text value => quoted value
  | moment value => value.print
  | list items => "[" ++ ", ".intercalate (printItems items) ++ "]"
  | table fields => "\x7b" ++ ", ".intercalate (printFields fields) ++ "\x7d"

/-- The printed form of each item. -/
def printItems : List Value → List String
  | [] => []
  | item :: rest => item.print :: printItems rest

/-- The printed form of each field. -/
def printFields : List (String × Value) → List String
  | [] => []
  | (name, value) :: rest => (quoted name ++ ": " ++ value.print) :: printFields rest

end

end Value

/-- Why a value cannot be printed. -/
inductive PrintFault where
  /-- A number in it has too many digits. -/
  | tooManyDigits
  /-- The values in it are nested too deep. -/
  | tooDeep
  deriving DecidableEq, Repr

/-- The text of a fault. -/
def PrintFault.message : PrintFault → String
  | tooManyDigits => tooManyDigitsMessage ""
  | tooDeep => "maximum recursion depth exceeded while getting the repr of an object"

namespace Value

mutual

/-- Why a value cannot be printed, where `room` values may stand inside of one another. What comes
first in print is told. -/
def printFault? (room : Nat) (value : Value) : Option PrintFault :=
  if room = 0 then some .tooDeep
  else
    match value with
    | integer number =>
      if number.natAbs < Nat.pow 10 digitLimit then none else some .tooManyDigits
    | moment value => if room < value.printDepth then some .tooDeep else none
    | list items => itemsFault? (room - 1) items
    | table fields => fieldsFault? (room - 1) fields
    | _ => none

/-- Why some items cannot be printed. -/
def itemsFault? (room : Nat) : List Value → Option PrintFault
  | [] => none
  | item :: rest => (item.printFault? room).or (itemsFault? room rest)

/-- Why some fields cannot be printed. A name can be wherever its value has room. -/
def fieldsFault? (room : Nat) : List (String × Value) → Option PrintFault
  | [] => none
  | (_, value) :: rest => (value.printFault? room).or (fieldsFault? room rest)

end

end Value

/-- Why a value is no indent offset. -/
inductive OffsetError where
  | notAnInteger (value : Value)
  | negative (value : Int)
  deriving Repr

namespace OffsetError

/-- The text of an error. -/
def message : OffsetError → String
  | notAnInteger value => "indent offset must be an integer, got " ++ value.print
  | negative value => "indent offset must not be negative, got " ++ toString value

/-- Why the text of an error cannot be made, in which the value is printed. -/
def printFault? (room : Nat) : OffsetError → Option PrintFault
  | notAnInteger value => value.printFault? room
  | negative value => (Value.integer value).printFault? room

end OffsetError

/-- The columns per level if nothing else is said. -/
def defaultIndentOffset : Nat := 4

/-- Reads a value as columns per level. Truth values are not numbers here. -/
def indentOffset : Value → Except OffsetError Nat
  | .integer (.ofNat columns) => .ok columns
  | .integer value => .error (.negative value)
  | value => .error (.notAnInteger value)

/-- What comes of a value that gives no columns per level. -/
inductive OffsetFault where
  /-- It is refused. -/
  | refused (error : OffsetError)
  /-- It would be refused, but the text of the error cannot be made. -/
  | untold (fault : PrintFault)
  deriving Repr

/-- The text of a fault. -/
def OffsetFault.message : OffsetFault → String
  | refused error => error.message
  | untold fault => fault.message

/-- What comes of an error: it is told if its text can be made. -/
def OffsetError.told (room : Nat) (error : OffsetError) : OffsetFault :=
  (error.printFault? room).elim (.refused error) .untold

/-- The columns per level that a value gives, where `room` values may stand inside of one another in
the text of an error. -/
def checkOffset (room : Nat) (value : Value) : Except OffsetFault Nat :=
  (indentOffset value).mapError (·.told room)

end KixScript

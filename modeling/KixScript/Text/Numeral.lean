import KixScript.Text.CodeSet

/-!
# Whole numbers in text

A whole number is written with decimal digits of any script, single underscores between digits, a
sign before them, and white space around.
-/

namespace KixScript

/-- The zeros of the decimal digits (Unicode 14.0); each is followed by its nine other digits. -/
def decimalZeros : List Nat :=
  [0x30, 0x660, 0x6F0, 0x7C0, 0x966, 0x9E6, 0xA66, 0xAE6, 0xB66, 0xBE6, 0xC66, 0xCE6, 0xD66, 0xDE6,
   0xE50, 0xED0, 0xF20, 0x1040, 0x1090, 0x17E0, 0x1810, 0x1946, 0x19D0, 0x1A80, 0x1A90, 0x1B50,
   0x1BB0, 0x1C40, 0x1C50, 0xA620, 0xA8D0, 0xA900, 0xA9D0, 0xA9F0, 0xAA50, 0xABF0, 0xFF10, 0x104A0,
   0x10D30, 0x11066, 0x110F0, 0x11136, 0x111D0, 0x112F0, 0x11450, 0x114D0, 0x11650, 0x116C0,
   0x11730, 0x118E0, 0x11950, 0x11C50, 0x11D50, 0x11DA0, 0x16A60, 0x16AC0, 0x16B50, 0x1D7CE,
   0x1D7D8, 0x1D7E2, 0x1D7EC, 0x1D7F6, 0x1E140, 0x1E2F0, 0x1E950, 0x1FBF0]

/-- The value of a decimal digit. -/
def decimalDigit? (c : Char) : Option Nat :=
  (decimalZeros.find? fun least => least ≤ c.toNat && c.toNat < least + 10).map (c.toNat - ·)

/-- Whether a character is a decimal digit. -/
def isDecimalDigit (c : Char) : Bool :=
  (decimalDigit? c).isSome

/-- White space that may surround a number. -/
def numberSpace : CodeSet :=
  ⟨[(0x09, 0x0D), (0x20, 0x20), (0x85, 0x85), (0xA0, 0xA0), (0x1680, 0x1680), (0x2000, 0x200A),
    (0x2028, 0x2029), (0x202F, 0x202F), (0x205F, 0x205F), (0x3000, 0x3000)]⟩

/-- A text without white space at its ends. -/
def trimSpace (text : List Char) : List Char :=
  ((text.dropWhile numberSpace.contains).reverse.dropWhile numberSpace.contains).reverse

/-- The digits of a number, where an underscore stands only between two digits. -/
def digitsOf? : List Char → Option (List Nat)
  | [] => none
  | [c] => (decimalDigit? c).map ([·])
  | c :: '_' :: rest => do
    let digit ← decimalDigit? c
    let digits ← digitsOf? rest
    return digit :: digits
  | c :: rest => do
    let digit ← decimalDigit? c
    let digits ← digitsOf? rest
    return digit :: digits

/-- The number that decimal digits write. -/
def natOfDigits (digits : List Nat) : Nat :=
  digits.foldl (fun value digit => value * 10 + digit) 0

/-- Numbers of more digits are neither read nor printed. -/
def digitLimit : Nat := 4300

/-- What is said of a number of more digits, `detail` being what is known of it. -/
def tooManyDigitsMessage (detail : String) : String :=
  s!"Exceeds the limit ({digitLimit} digits) for integer string conversion"
    ++ detail ++ "; use sys.set_int_max_str_digits() to increase the limit"

/-- The number that digits write, without a sign. -/
def naturalOf? (text : List Char) : Option Nat := do
  let digits ← digitsOf? text
  if digits.length ≤ digitLimit then return natOfDigits digits else none

/-- The whole number that a text writes. -/
def integerOf? (text : List Char) : Option Int :=
  match trimSpace text with
  | '-' :: digits => (naturalOf? digits).map fun value => -(value : Int)
  | '+' :: digits => (naturalOf? digits).map Int.ofNat
  | digits => (naturalOf? digits).map Int.ofNat

end KixScript

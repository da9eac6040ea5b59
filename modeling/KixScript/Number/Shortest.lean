import KixScript.Number.Binary

/-!
# Shortest decimals

A floating-point number is written with the fewest decimal digits that read back as the same number,
and among those the nearest to its value. Numbers from 0.0001 up to 10^16 are written with a point,
others with an exponent.
-/

namespace KixScript

/-- A number `digits * 10 ^ exponent` that is not negative. -/
structure Decimal where
  digits : Nat
  exponent : Int
  deriving DecidableEq, Repr

/-- The number of decimal digits. -/
def digitCount (value : Nat) : Nat :=
  (Nat.toDigits 10 value).length

namespace Decimal

/-- The value of a decimal. -/
def toFraction (decimal : Decimal) : Fraction :=
  Fraction.scale ⟨decimal.digits, 1⟩ 10 decimal.exponent

/-- The number of digits before the point, or the negated number of zeros behind it. -/
def place (decimal : Decimal) : Int :=
  digitCount decimal.digits + decimal.exponent

/-- The digits without zeros at the end. -/
def figures (decimal : Decimal) : List Char :=
  ((Nat.toDigits 10 decimal.digits).reverse.dropWhile (· == '0')).reverse

/-- The figures with a point in its place. -/
def positional (decimal : Decimal) : List Char :=
  let place := decimal.place
  if place ≤ 0 then ['0', '.'] ++ List.replicate (-place).toNat '0' ++ decimal.figures
  else
    let whole := decimal.figures.take place.toNat
    let part := decimal.figures.drop place.toNat
    whole ++ List.replicate (place.toNat - whole.length) '0' ++ ['.']
      ++ (if part.isEmpty then ['0'] else part)

/-- The figures with a point behind the first, and an exponent of two digits at least. -/
def scientific (decimal : Decimal) : List Char :=
  let exponent := decimal.place - 1
  let size := Nat.toDigits 10 exponent.natAbs
  let sign := if exponent < 0 then '-' else '+'
  let point := if decimal.figures.length ≤ 1 then [] else ['.']
  decimal.figures.take 1 ++ point ++ decimal.figures.drop 1 ++ ['e', sign]
    ++ List.replicate (2 - size.length) '0' ++ size

/-- A decimal with a point where that is short enough, else with an exponent. -/
def print (decimal : Decimal) : List Char :=
  if -4 < decimal.place && decimal.place ≤ 16 then decimal.positional else decimal.scientific

end Decimal

namespace Binary

/-- The zeros between the point and the first digit of a fraction below one; at most `bound`. -/
def leadingZeros (fraction : Fraction) : Nat → Nat
  | 0 => 0
  | bound + 1 =>
    let next := fraction.scale 10 1
    if next.floor = 0 then leadingZeros next bound + 1 else 0

/-- The number of digits before the point, or the negated number of zeros behind it. -/
def place (number : Binary) : Int :=
  let value := number.toFraction
  if value.floor = 0 then -(leadingZeros value 400 : Int) else digitCount value.floor

/-- Of the two decimals of `count` digits next to a number, the nearest one that reads back. -/
def decimalOf? (number : Binary) (count : Nat) : Option Decimal :=
  let exponent := number.place - count
  let scaled := number.toFraction.scale 10 (-exponent)
  let below := scaled.floor
  let order := if scaled.roundToEven = below then [below, below + 1] else [below + 1, below]
  (order.map (⟨·, exponent⟩)).find? fun decimal : Decimal =>
    nearest? decimal.toFraction = some number

/-- The shortest decimal that reads back. Seventeen digits always do. -/
def shortest (number : Binary) : Decimal :=
  ((List.range' 1 17).findSome? number.decimalOf?).getD ⟨0, 0⟩

end Binary

/-- The floating-point number nearest to a decimal, in its shortest form. -/
def Decimal.nearestText (decimal : Decimal) : String :=
  if decimal.digits = 0 || decimal.place < -330 then "0.0"
  else if 310 < decimal.place then "inf"
  else
    match Binary.nearest? decimal.toFraction with
    | none => "inf"
    | some number =>
      if number.significand = 0 then "0.0" else String.ofList number.shortest.print

end KixScript

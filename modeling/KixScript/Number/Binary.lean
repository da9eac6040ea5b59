/-!
# Binary floating-point numbers

The numbers of 53 binary digits with exponents down to -1074, and the one among them that is nearest
to a fraction. All arithmetic is on whole numbers, so nothing is lost on the way.
-/

namespace KixScript

/-- A number `significand * 2 ^ exponent` that is not negative. -/
structure Binary where
  significand : Nat
  exponent : Int
  deriving DecidableEq, Repr

/-- A fraction of whole numbers. -/
structure Fraction where
  numerator : Nat
  denominator : Nat
  deriving DecidableEq, Repr

namespace Fraction

/-- A fraction times a power of a whole number. -/
def scale (fraction : Fraction) (base : Nat) : Int → Fraction
  | .ofNat power => { fraction with numerator := fraction.numerator * base.pow power }
  | .negSucc power => { fraction with denominator := fraction.denominator * base.pow (power + 1) }

/-- The whole part of a fraction. -/
def floor (fraction : Fraction) : Nat :=
  fraction.numerator / fraction.denominator

/-- The nearest whole number; of two equally near ones the even one. -/
def roundToEven (fraction : Fraction) : Nat :=
  let whole := fraction.floor
  let twice := 2 * (fraction.numerator % fraction.denominator)
  if fraction.denominator < twice then whole + 1
  else if twice < fraction.denominator then whole
  else if whole % 2 = 0 then whole
  else whole + 1

end Fraction

namespace Binary

/-- The least exponent. -/
def leastExponent : Int := -1074

/-- The exponent at which a fraction has 53 binary digits before the point, or the least one. -/
def exponentFor (fraction : Fraction) : Int :=
  let guess : Int := (fraction.numerator.log2 : Int) - fraction.denominator.log2 - 52
  let digits := (fraction.scale 2 (-guess)).floor
  let exact :=
    if Nat.pow 2 53 ≤ digits then guess + 1
    else if digits < Nat.pow 2 52 then guess - 1
    else guess
  max exact leastExponent

/-- The number nearest to a fraction; none if it is too large. -/
def nearest? (fraction : Fraction) : Option Binary :=
  let exponent := exponentFor fraction
  let significand := (fraction.scale 2 (-exponent)).roundToEven
  let rounded : Binary :=
    if significand = Nat.pow 2 53 then ⟨Nat.pow 2 52, exponent + 1⟩ else ⟨significand, exponent⟩
  if rounded.exponent ≤ 971 then some rounded else none

/-- The value of a number. -/
def toFraction (number : Binary) : Fraction :=
  Fraction.scale ⟨number.significand, 1⟩ 2 number.exponent

end Binary

end KixScript

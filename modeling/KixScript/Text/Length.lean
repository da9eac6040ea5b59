/-!
# Lengths

Lengths and indices are kept in 64 bits, one of which is the sign. A number outside of that range is
no length. Every text that has a length is taken to fit into memory.
-/

namespace KixScript

/-- Why a text of some length cannot be made. -/
inductive LengthFault where
  /-- The number is no length at all. -/
  | notALength
  deriving DecidableEq, Repr

/-- What is said of a number that is no length or index. -/
def notAnIndexMessage : String := "cannot fit 'int' into an index-sized integer"

/-- The text of a fault. -/
def LengthFault.message : LengthFault → String
  | notALength => notAnIndexMessage

/-- Whether a number can be a length or an index, from either end. -/
def isIndex (number : Int) : Bool :=
  -Int.pow 2 63 ≤ number && number < Int.pow 2 63

/-- Why some character cannot be repeated so many times. A negative number of times is none. -/
def lengthFault? (count : Int) : Option LengthFault :=
  if isIndex count then none else some .notALength

end KixScript

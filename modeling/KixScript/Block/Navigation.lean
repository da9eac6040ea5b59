import KixScript.Block

/-!
# Moving by functions

Jumps to the beginning and to the end of functions. A jump of `count` places passes over the ones
between; a negative count goes the other way. A jump that finds too few places stops at the limit of
the text.
-/

namespace KixScript

/-- Where a jump ended, and whether it found its place. -/
structure Jump where
  moved : Bool
  position : Int
  deriving DecidableEq, Repr

/-- Whether an occurrence is of the given keyword. -/
def Occurrence.hasKeyword (occurrence : Occurrence) (keyword : Keyword) : Bool :=
  occurrence.keyword == keyword

/-- The jump to the `count`-th of some places in the order of the jump, or to the limit. -/
def jumpTo (places : List Nat) (count : Nat) (limit : Nat) : Jump :=
  match places[count - 1]? with
  | some place => { moved := true, position := place }
  | none => { moved := false, position := limit }

namespace Script

/-- The uses of a keyword in a script, wherever they stand. -/
def occurrencesOf (script : Script) (keyword : Keyword) : List Occurrence :=
  (script.scan.atoms.filterMap Atom.occurrence?).filter (·.hasKeyword keyword)

/-- A jump over some places, given in order: forward for a positive count, else backward. -/
def jump (script : Script) (places : List Nat) (offset : Int) (forward : Bool) (count : Nat) :
    Jump :=
  if forward then jumpTo (places.filter fun place : Nat => offset < place) count script.length
  else jumpTo (places.filter fun place : Nat => place < offset).reverse count 0

/-- Jumps back to the beginning of the `count`-th function before an offset, or forward for a
negative count. -/
def beginningOfFunction (script : Script) (offset count : Int) : Jump :=
  if count = 0 then { moved := true, position := offset }
  else
    script.jump ((script.occurrencesOf (.opener .function)).map Occurrence.start) offset (count < 0)
      count.natAbs

/-- Jumps forward behind the end of the `count`-th function that ends after an offset, or back for a
negative count. -/
def endOfFunction (script : Script) (offset count : Int) : Jump :=
  if count = 0 then { moved := true, position := offset }
  else
    script.jump ((script.occurrencesOf (.closer .function)).map Occurrence.stop) offset (0 < count)
      count.natAbs

end Script

end KixScript

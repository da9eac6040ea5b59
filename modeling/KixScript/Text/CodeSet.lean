/-!
# Sets of code points

A Unicode property is a set of code points, and a list of inclusive ranges is its shortest
description.
-/

namespace KixScript

/-- A set of code points, given by inclusive ranges. -/
structure CodeSet where
  ranges : List (Nat × Nat)

/-- Whether a character lies in one of the ranges. -/
def CodeSet.contains (set : CodeSet) (c : Char) : Bool :=
  set.ranges.any fun range => range.1 ≤ c.toNat && c.toNat ≤ range.2

theorem CodeSet.contains_iff {set : CodeSet} {c : Char} :
    set.contains c = true ↔ ∃ range ∈ set.ranges, range.1 ≤ c.toNat ∧ c.toNat ≤ range.2 := by
  simp [CodeSet.contains]

end KixScript

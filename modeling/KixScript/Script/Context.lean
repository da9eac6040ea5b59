import KixScript.Script

/-!
# Lexical context

What surrounds an offset: the comment or string it lies in, and the depth of parentheses.
-/

namespace KixScript

/-- What surrounds an offset. -/
structure Context where
  /-- The comment or string around the offset. -/
  region : Option Region
  /-- The number of unmatched opening parentheses before the offset, or before the region. -/
  depth : Nat
  deriving DecidableEq, Repr

namespace Context

/-- Whether the offset lies in a comment. -/
def inComment (context : Context) : Bool :=
  context.region.any Region.isComment

/-- Whether the offset lies in a string. -/
def inString (context : Context) : Bool :=
  context.region.any fun region => !region.isComment

/-- Whether the offset lies in neither. -/
def inCode (context : Context) : Bool :=
  context.region.isNone

/-- The offset of the delimiter that opens the comment or string. -/
def regionStart (context : Context) : Option Nat :=
  context.region.map Region.start

end Context

namespace Script

/-- The comment or string that contains an offset. Only the last one that starts before the offset
can. -/
def regionAt (script : Script) (offset : Int) : Option Region :=
  ((script.scan.regions.filter fun region => region.start < offset).getLast?).filter
    (·.contains offset)

/-- The depth of parentheses at an offset; behind the text, that at its end. -/
def depthAt (script : Script) (offset : Nat) : Nat :=
  (script.scan.depths[min offset script.length]?).getD 0

/-- The context of an offset. Offsets before the text count as its beginning. Behind the text there
is no comment or string, also where one was not closed. -/
def contextAt (script : Script) (offset : Int) : Context :=
  let region := if offset ≤ script.length then script.regionAt (max 0 offset) else none
  { region, depth := script.depthAt (region.elim offset.toNat Region.start) }

/-- The atoms that start before an offset. -/
def atomsBefore (script : Script) (offset : Int) : List Atom :=
  script.scan.atoms.filter fun atom => atom.start < offset

/-- The index of the last atom that starts before an offset. -/
def lastAtomBefore? (script : Script) (offset : Int) : Option Nat :=
  match (script.atomsBefore offset).length with
  | 0 => none
  | index + 1 => some index

end Script

end KixScript

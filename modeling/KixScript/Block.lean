import KixScript.Script.Context

/-!
# Blocks

Which keyword opened the block around a place, and which one a closing keyword belongs to. Both are
found by walking back over the keywords before the place while remembering the closing ones that
still wait for their opener.

Groups in parentheses that are closed before the place are passed over; a group that the place is
inside of is stepped out of. Comments and strings hold no keywords.
-/

namespace KixScript

/-- A block keyword in its place. -/
structure Occurrence where
  keyword : Keyword
  start : Nat
  stop : Nat
  deriving DecidableEq, Repr

/-- The block keyword that an atom is. -/
def Atom.occurrence? : Atom → Option Occurrence
  | .word w => w.keyword.map fun keyword => ⟨keyword, w.start, w.stop⟩
  | _ => none

/-- The atoms outside of closed groups, of atoms listed nearest first. `count` is the number of
atoms listed, and the next `skip` of them belong to a group. -/
def outsideGroups (count skip : Nat) : List Atom → List Atom
  | [] => []
  | atom :: earlier =>
    match skip with
    | skip + 1 => outsideGroups (count - 1) skip earlier
    | 0 =>
      match atom with
      | .closing _ (some partner) => outsideGroups (count - 1) (count - 1 - partner) earlier
      | _ => atom :: outsideGroups (count - 1) 0 earlier

/-- The block keywords met on the way back over some atoms, nearest first. -/
def keywordsBack (atoms : List Atom) : List Occurrence :=
  (outsideGroups atoms.length 0 atoms.reverse).filterMap Atom.occurrence?

/-- The closing keywords that still wait once the opener of a block of this kind is met. The
branches of a block end with it, and its own closer has found what it waited for. -/
def settle (kind : BlockKind) (waiting : List Keyword) : List Keyword :=
  let waiting := waiting.dropWhile fun keyword => keyword.role == .both
  if waiting.head? = some (.closer kind) then waiting.tail else waiting

/-- The opener of a block, looked for backwards. `waiting` holds the keywords met so far that have
not found their opener, nearest first. With `seeded`, the search is for the opener of the keyword
that it began with, and ends when nothing waits any more. -/
def findOpener (seeded : Bool) (waiting : List Keyword) : List Occurrence → Option Occurrence
  | [] => none
  | found :: earlier =>
    match found.keyword with
    | .closer _ => findOpener seeded (found.keyword :: waiting) earlier
    | .branch _ =>
      if waiting.isEmpty then some found
      else findOpener seeded (found.keyword :: waiting) earlier
    | .opener kind =>
      if waiting.isEmpty then some found
      else if seeded && (settle kind waiting).isEmpty then some found
      else findOpener seeded (settle kind waiting) earlier

namespace Script

/-- The keyword of the innermost block that is open at an offset. In a comment or string, the search
begins where it begins. -/
def enclosingOpener (script : Script) (offset : Int) : Option Occurrence :=
  let place : Int := (script.contextAt offset).regionStart.elim offset Int.ofNat
  findOpener false [] (keywordsBack (script.atomsBefore place))

/-- The block keyword whose word covers an offset. -/
def keywordAt (script : Script) (offset : Int) : Option Occurrence :=
  match (script.atomsBefore (offset + 1)).getLast? with
  | some atom => if atom.stop ≤ offset then none else atom.occurrence?
  | none => none

/-- The opener that belongs to the closing keyword at an offset. `Else` and `Case` belong to their
`If` and `Select`. -/
def matchingOpener (script : Script) (offset : Int) : Option Occurrence :=
  match script.keywordAt offset with
  | some found =>
    if found.keyword.closes then
      findOpener true [found.keyword] (keywordsBack (script.atomsBefore found.start))
    else none
  | none => none

end Script

end KixScript

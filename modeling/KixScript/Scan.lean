import KixScript.Keyword
import KixScript.Lexeme

/-!
# Scans

A scan knows where each lexeme of a text stands and what precedes it. From it come the views that
the rest of the library asks about: the comments and strings, the words, the punctuation, the
*atoms* (words and parentheses, each parenthesis with its partner), and the depth of parentheses at
every offset.
-/

namespace KixScript

/-- Whether the name of a function may come next: `Function` and blanks, and nothing else, stand
between the last word and here. -/
inductive DeclarationLead where
  /-- Something else precedes. -/
  | absent
  /-- The word `Function` precedes directly. -/
  | word
  /-- `Function` and one or more blanks precede. -/
  | gap
  deriving DecidableEq, Repr

/-- What is known before a lexeme is read. -/
structure Cursor where
  /-- The offset of the lexeme's first character. -/
  offset : Nat
  /-- The number of unmatched opening parentheses before it. -/
  depth : Nat
  /-- Whether a `.` directly precedes it. -/
  afterDot : Bool
  /-- Whether it can be the name of a function. -/
  lead : DeclarationLead
  deriving DecidableEq, Repr

namespace Cursor

/-- The cursor before any lexeme. -/
def start : Cursor :=
  { offset := 0, depth := 0, afterDot := false, lead := .absent }

/-- A closing parenthesis without a partner leaves the depth at zero. -/
def depthAfter (depth : Nat) : Lexeme → Nat
  | .opening => depth + 1
  | .closing => depth - 1
  | _ => depth

/-- The block keyword that a word is here. A member of an object (`$o.Next`) is none. -/
def keyword? (cursor : Cursor) (word : List Char) : Option Keyword :=
  if cursor.afterDot then none else Keyword.ofText? word

/-- Only the keyword `Function` leads to a name. -/
def leadAfter (cursor : Cursor) : Lexeme → DeclarationLead
  | .word text => if cursor.keyword? text = some (.opener .function) then .word else .absent
  | .space c => if isBlank c && cursor.lead != .absent then .gap else .absent
  | _ => .absent

/-- The cursor behind a lexeme. -/
def advance (cursor : Cursor) (lexeme : Lexeme) : Cursor :=
  { offset := cursor.offset + lexeme.length
    depth := depthAfter cursor.depth lexeme
    afterDot := lexeme.text.getLast? == some '.'
    lead := leadAfter cursor lexeme }

end Cursor

/-- A lexeme in its place. -/
structure Piece where
  lexeme : Lexeme
  cursor : Cursor
  deriving DecidableEq, Repr

/-- The lexemes in their places, the first one at `cursor`. -/
def placed (cursor : Cursor) : List Lexeme → List Piece
  | [] => []
  | lexeme :: rest => ⟨lexeme, cursor⟩ :: placed (cursor.advance lexeme) rest

/-- A stretch of the text, from `start` up to `stop` exclusive. -/
structure Span where
  start : Nat
  stop : Nat
  deriving DecidableEq, Repr

/-- A comment or string, from its opening delimiter up to `stop` exclusive. It is `closed` unless it
runs into the end of the text. -/
structure Region where
  kind : RegionKind
  start : Nat
  stop : Nat
  closed : Bool
  deriving DecidableEq, Repr

namespace Region

/-- Strings are the only regions that are not comments. -/
def isComment (region : Region) : Bool :=
  region.kind != .string

/-- Whether an offset lies inside. The end of the text is still inside a region that is not closed,
since what is written there would belong to it. -/
def contains (region : Region) (offset : Int) : Bool :=
  region.start < offset && if region.closed then offset < region.stop else offset ≤ region.stop

end Region

/-- A word of the code. -/
structure Word where
  start : Nat
  stop : Nat
  text : List Char
  /-- The number of unmatched opening parentheses before it. -/
  depth : Nat
  /-- Whether a `.` directly precedes it, as in `$o.Next`. -/
  member : Bool
  /-- The block keyword that it is. Members of objects are none. -/
  keyword : Option Keyword
  deriving DecidableEq, Repr

/-- A unit of the block structure: a word, or a parenthesis with the index of its partner among the
atoms, if it has one. -/
inductive Atom where
  | word (word : Word)
  | opening (start : Nat) (partner : Option Nat)
  | closing (start : Nat) (partner : Option Nat)
  deriving DecidableEq, Repr

namespace Atom

/-- The offset of the first character. -/
def start : Atom → Nat
  | word w => w.start
  | opening start _ => start
  | closing start _ => start

/-- The offset behind the last character. -/
def stop : Atom → Nat
  | word w => w.stop
  | opening start _ => start + 1
  | closing start _ => start + 1

/-- The index of the matching parenthesis. -/
def partner : Atom → Option Nat
  | word _ => none
  | opening _ partner => partner
  | closing _ partner => partner

end Atom

namespace Piece

/-- The offset of the first character. -/
def start (piece : Piece) : Nat :=
  piece.cursor.offset

/-- The offset behind the last character. -/
def stop (piece : Piece) : Nat :=
  piece.cursor.offset + piece.lexeme.length

/-- The comment or string that a piece is. -/
def region? (piece : Piece) : Option Region :=
  match piece.lexeme with
  | .region kind _ closed => some { kind, start := piece.start, stop := piece.stop, closed }
  | _ => none

/-- The word that a piece is. -/
def word? (piece : Piece) : Option Word :=
  match piece.lexeme with
  | .word text =>
    some
      { start := piece.start
        stop := piece.stop
        text
        depth := piece.cursor.depth
        member := piece.cursor.afterDot
        keyword := piece.cursor.keyword? text }
  | _ => none

/-- The run of punctuation that a piece is. -/
def punctuation? (piece : Piece) : Option Span :=
  match piece.lexeme with
  | .punctuation _ => some { start := piece.start, stop := piece.stop }
  | _ => none

/-- The atom that a piece is, before parentheses are paired. -/
def atom? (piece : Piece) : Option Atom :=
  match piece.lexeme with
  | .opening => some (.opening piece.start none)
  | .closing => some (.closing piece.start none)
  | _ => piece.word?.map .word

/-- The depth at each offset of a piece. -/
def depths (piece : Piece) : List Nat :=
  List.replicate piece.lexeme.length piece.cursor.depth

end Piece

/-- The pairs of matching parentheses, as indices of atoms. `index` is that of the first atom given,
and `waiting` holds the opening ones before it that have no partner yet, nearest first. -/
def parenPairs (index : Nat) (waiting : List Nat) : List Atom → List (Nat × Nat)
  | [] => []
  | .word _ :: rest => parenPairs (index + 1) waiting rest
  | .opening _ _ :: rest => parenPairs (index + 1) (index :: waiting) rest
  | .closing _ _ :: rest =>
    match waiting with
    | [] => parenPairs (index + 1) [] rest
    | nearest :: outer => (nearest, index) :: parenPairs (index + 1) outer rest

/-- An atom with the partner that `pairs` gives to its index. -/
def Atom.pairedBy (pairs : List (Nat × Nat)) (index : Nat) : Atom → Atom
  | .word w => .word w
  | .opening start _ => .opening start ((pairs.find? (·.1 = index)).map (·.2))
  | .closing start _ => .closing start ((pairs.find? (·.2 = index)).map (·.1))

/-- The atoms with their partners. -/
def pairAtoms (atoms : List Atom) : List Atom :=
  let pairs := parenPairs 0 [] atoms
  atoms.mapIdx (Atom.pairedBy pairs)

/-- All that is known of a text without asking about blocks. -/
structure Scan where
  /-- The lexemes in their places. -/
  pieces : List Piece
  /-- The comments and strings. -/
  regions : List Region
  /-- The words. -/
  words : List Word
  /-- The runs of punctuation. -/
  punctuation : List Span
  /-- The words and parentheses. -/
  atoms : List Atom
  /-- The number of unmatched opening parentheses before each offset, the end of the text too. -/
  depths : List Nat

/-- Scans a text. -/
def Scan.ofText (text : List Char) : Scan :=
  let all := lexemes text
  let pieces := placed .start all
  { pieces
    regions := pieces.filterMap Piece.region?
    words := pieces.filterMap Piece.word?
    punctuation := pieces.filterMap Piece.punctuation?
    atoms := pairAtoms (pieces.filterMap Piece.atom?)
    depths := pieces.flatMap Piece.depths ++ [(all.foldl Cursor.advance .start).depth] }

end KixScript

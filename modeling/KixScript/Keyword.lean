import KixScript.Text.CaseFold

/-!
# Block keywords

A block is opened by one keyword and closed for good by another. `Else` and `Case` close the branch
before them and open the next one, inside the block that holds them.
-/

namespace KixScript

/-- The kinds of block. -/
inductive BlockKind where
  | doUntil
  | forNext
  | function
  | conditional
  | select
  | whileLoop
  deriving DecidableEq, Repr

/-- The keywords that divide a block into branches. -/
inductive Branch where
  | elseBranch
  | caseBranch
  deriving DecidableEq, Repr

/-- The kind of block that a branch divides. -/
def Branch.owner : Branch → BlockKind
  | .elseBranch => .conditional
  | .caseBranch => .select

/-- A block keyword: it opens a block, closes one, or divides one. -/
inductive Keyword where
  | opener (kind : BlockKind)
  | closer (kind : BlockKind)
  | branch (branch : Branch)
  deriving DecidableEq, Repr

namespace Keyword

/-- The spelling of a keyword in lower case. -/
def word : Keyword → String
  | opener .doUntil => "do"
  | closer .doUntil => "until"
  | opener .forNext => "for"
  | closer .forNext => "next"
  | opener .function => "function"
  | closer .function => "endfunction"
  | opener .conditional => "if"
  | branch .elseBranch => "else"
  | closer .conditional => "endif"
  | opener .select => "select"
  | branch .caseBranch => "case"
  | closer .select => "endselect"
  | opener .whileLoop => "while"
  | closer .whileLoop => "loop"

/-- Every keyword, block by block. -/
def all : List Keyword :=
  [opener .doUntil, closer .doUntil,
   opener .forNext, closer .forNext,
   opener .function, closer .function,
   opener .conditional, branch .elseBranch, closer .conditional,
   opener .select, branch .caseBranch, closer .select,
   opener .whileLoop, closer .whileLoop]

theorem mem_all (k : Keyword) : k ∈ all := by
  rcases k with kind | kind | branch
  · cases kind <;> simp [all]
  · cases kind <;> simp [all]
  · cases branch <;> simp [all]

/-- The keyword that a text spells, in any letter case. -/
def ofText? (text : List Char) : Option Keyword :=
  let name := String.ofList (lower text)
  all.find? fun k => k.word == name

/-- What a keyword does to the blocks around it. -/
inductive Role where
  | opens
  | closes
  | both
  deriving DecidableEq, Repr

/-- Branches both close and open. -/
def role : Keyword → Role
  | opener _ => .opens
  | closer _ => .closes
  | branch _ => .both

/-- Whether lines after the keyword are inside a block it begins. -/
def opens : Keyword → Bool
  | closer _ => false
  | _ => true

/-- Whether the keyword ends what stands before it. -/
def closes : Keyword → Bool
  | opener _ => false
  | _ => true

/-- The keywords that may begin a line at the same column as the line of `k`. -/
def closers : Keyword → List Keyword
  | opener .conditional => [branch .elseBranch, closer .conditional]
  | opener .select => [branch .caseBranch, closer .select]
  | opener kind => [closer kind]
  | branch .elseBranch => [closer .conditional]
  | branch .caseBranch => [branch .caseBranch, closer .select]
  | closer _ => []

/-- The keyword that ends the block for good, for a keyword that begins one. -/
def ownCloser? : Keyword → Option Keyword
  | opener kind => some (closer kind)
  | _ => none

end Keyword

end KixScript

import KixScript.Script
import KixScript.Token

/-!
# Highlighting

The classified parts of a whole script, in order. Comments, strings, blanks and line ends have none.
-/

namespace KixScript

namespace Piece

/-- What of a piece's surroundings its class hangs on. -/
def surroundings (piece : Piece) : Surroundings :=
  { afterFunction := piece.cursor.lead == .gap, member := piece.cursor.afterDot }

/-- The fragments of a piece. -/
def fragments (piece : Piece) : List Fragment :=
  match piece.lexeme with
  | .word text => KixScript.fragments piece.surroundings text
  | .punctuation text => [⟨text, .punctuation, .name⟩]
  | .opening => [⟨['('], .punctuation, .name⟩]
  | .closing => [⟨[')'], .punctuation, .name⟩]
  | .space _ => []
  | .region _ _ _ => []

/-- The classified parts of a piece. -/
def parts (piece : Piece) : List Part :=
  partsFrom piece.start piece.fragments

/-- The name that a piece declares as a function. -/
def declaredName? (piece : Piece) : Option Word :=
  match piece.word?, piece.fragments with
  | some word, fragment :: _ =>
    if fragment.tokenClass = .functionDeclaration then
      some
        { start := word.start
          stop := word.start + fragment.text.length
          text := fragment.text
          depth := word.depth
          member := false
          keyword := none }
    else none
  | _, _ => none

end Piece

namespace Script

/-- The classified parts of a script. -/
def highlight (script : Script) : List Part :=
  script.scan.pieces.flatMap Piece.parts

/-- The words that name the functions a script declares. -/
def declaredFunctions (script : Script) : List Word :=
  script.scan.pieces.filterMap Piece.declaredName?

end Script

end KixScript

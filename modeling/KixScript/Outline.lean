import KixScript.Highlight

/-!
# Outlines

The functions and labels of a script, each with the offset where it is named.
-/

namespace KixScript

/-- A named place. -/
structure OutlineEntry where
  name : List Char
  position : Nat
  deriving DecidableEq, Repr

/-- The named places of a script, each kind in order. -/
structure Outline where
  functions : List OutlineEntry
  labels : List OutlineEntry
  deriving DecidableEq, Repr

/-- The label that a word is. A label is named without its colon, at the offset of the colon. -/
def Word.label? (word : Word) : Option OutlineEntry :=
  match fragments .plain word.text with
  | fragment :: _ =>
    if fragment.tokenClass = .label then
      some { name := fragment.text.tail, position := word.start }
    else none
  | [] => none

namespace Script

/-- The outline of a script. -/
def outline (script : Script) : Outline :=
  { functions := script.declaredFunctions.map fun word => ⟨word.text, word.start⟩
    labels := script.scan.words.filterMap Word.label? }

/-- One entry of a printed outline; lines are counted from one. -/
def printEntry (script : Script) (entry : OutlineEntry) : String :=
  s!"  {String.ofList entry.name} (line {script.lineOf entry.position + 1})\n"

/-- The printed outline. -/
def printOutline (script : Script) : String :=
  let outline := script.outline
  "Functions:\n" ++ String.join (outline.functions.map script.printEntry)
    ++ "Labels:\n" ++ String.join (outline.labels.map script.printEntry)

end Script

end KixScript

import KixScript.Layout
import KixScript.Outline
import KixScript.Warning

/-!
# Workspaces

A workspace keeps the documents that an editor has open. For each it tells the malformed macros, the
edit that indents it anew, and the symbols that it names. Places are lines and columns counted from
zero.
-/

namespace KixScript

/-- A stretch of a document between two places. -/
structure Range where
  start : Position
  stop : Position
  deriving DecidableEq, Repr

/-- A remark about a stretch of a document. -/
structure Diagnostic where
  range : Range
  message : String
  deriving DecidableEq, Repr

/-- A replacement of a stretch of a document. -/
structure Edit where
  range : Range
  text : List Char
  deriving DecidableEq, Repr

/-- What a symbol names. -/
inductive SymbolKind where
  | function
  | label
  deriving DecidableEq, Repr

/-- A named place of a document: `range` is its line, and `selection` the name in it. -/
structure DocumentSymbol where
  name : List Char
  kind : SymbolKind
  range : Range
  selection : Range
  deriving DecidableEq, Repr

/-- A range of some characters on one line. -/
def Range.onLine (line column length : Nat) : Range :=
  { start := ⟨line, column⟩, stop := ⟨line, column + length⟩ }

/-- Whether one place is not behind another. -/
def Position.le (first second : Position) : Bool :=
  first.line < second.line || (first.line == second.line && first.column ≤ second.column)

/-- Why a document is not formatted. -/
inductive FormattingFault where
  /-- The refusal of the offset cannot be told. -/
  | untold (fault : PrintFault)
  /-- A line would be too long. -/
  | length (fault : LengthFault)
  deriving DecidableEq, Repr

/-- The text of a fault. -/
def FormattingFault.message : FormattingFault → String
  | untold fault => fault.message
  | length fault => fault.message

namespace Script

/-- The malformed macros of a document. -/
def diagnostics (script : Script) : List Diagnostic :=
  (script.highlight.filter Part.warning).map fun part =>
    let position := script.position part.start
    { range := Range.onLine position.line position.column (part.stop - part.start)
      message := (script.warningFor part).message }

/-- The edit that replaces a document; none if it would change nothing. -/
def replacement (script : Script) (text : List Char) : Option Edit :=
  if text = script.text then none
  else some { range := { start := ⟨0, 0⟩, stop := script.position script.length }, text }

/-- The edit that indents a document anew. An offset that is refused gives way to the default, but
not one whose refusal cannot be told. -/
def formatting (script : Script) (room : Nat) (offset : Value) :
    Except FormattingFault (Option Edit) := do
  let columns ←
    match checkOffset room offset with
    | .ok columns => .ok columns
    | .error (.refused _) => .ok defaultIndentOffset
    | .error (.untold fault) => .error (.untold fault)
  let text ← (script.tryReindent columns).mapError .length
  return script.replacement text

/-- The symbol for an entry of the outline, whose selection has `length` characters. -/
def symbolFor (script : Script) (kind : SymbolKind) (length : Nat) (entry : OutlineEntry) :
    DocumentSymbol :=
  let position := script.position entry.position
  let width := (script.lines[position.line]?.map fun line => line.text.length).getD 0
  { name := entry.name
    kind
    range := Range.onLine position.line 0 width
    selection := Range.onLine position.line position.column length }

/-- The functions and labels of a document, in order. A label is selected with its colon. -/
def symbols (script : Script) : List DocumentSymbol :=
  let outline := script.outline
  let functions := outline.functions.map fun entry =>
    script.symbolFor .function entry.name.length entry
  let labels := outline.labels.map fun entry =>
    script.symbolFor .label (entry.name.length + 1) entry
  (functions ++ labels).mergeSort fun first second =>
    first.selection.start.le second.selection.start

end Script

/-- The open documents by name. -/
structure Workspace where
  documents : List (String × List Char)

/-- What an editor asks. -/
inductive Request where
  /-- A document is opened, or all of its text replaced. -/
  | store (name : String) (text : List Char)
  | format (name : String) (offset : Value)
  | symbols (name : String)
  deriving Repr

/-- What a request answers. -/
inductive Response where
  | published (name : String) (diagnostics : List Diagnostic)
  | edits (edits : List Edit)
  | failed (fault : FormattingFault)
  | symbols (symbols : List DocumentSymbol)
  /-- The document was never opened. -/
  | notOpen (name : String)
  deriving Repr

namespace Workspace

/-- A workspace without documents. -/
def empty : Workspace :=
  { documents := [] }

/-- The text of a document; none if it was never opened. -/
def text? (workspace : Workspace) (name : String) : Option (List Char) :=
  workspace.documents.lookup name

/-- The workspace with a document's text replaced. -/
def store (workspace : Workspace) (name : String) (text : List Char) : Workspace :=
  { documents := (name, text) :: workspace.documents.filter (·.1 != name) }

/-- The answer to a question about the text of a document. -/
def ask (workspace : Workspace) (name : String) (answer : Script → Response) : Response :=
  match workspace.text? name with
  | some text => answer (Script.ofText text)
  | none => .notOpen name

/-- The answer to a request, and the workspace after it. `room` values may stand inside of one another
in the text of an error. -/
def handle (workspace : Workspace) (room : Nat) : Request → Response × Workspace
  | .store name text =>
    (.published name (Script.ofText text).diagnostics, workspace.store name text)
  | .format name offset =>
    let answer := workspace.ask name fun script =>
      match script.formatting room offset with
      | .ok edit => .edits edit.toList
      | .error fault => .failed fault
    (answer, workspace)
  | .symbols name => (workspace.ask name fun script => .symbols script.symbols, workspace)

/-- The answers to some requests. -/
def run (workspace : Workspace) (room : Nat) : List Request → List Response
  | [] => []
  | request :: rest =>
    let (response, next) := workspace.handle room request
    response :: next.run room rest

end Workspace

end KixScript

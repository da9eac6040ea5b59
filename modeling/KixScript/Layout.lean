import KixScript.Block
import KixScript.Script.LineNumber
import KixScript.Setting

/-!
# Layout

The column of each line follows from the block and the parentheses around its first character that
is not blank. A line is placed relative to the line that opens its block, so the columns of a script
are found from the top to the bottom.
-/

namespace KixScript

/-- How a line is placed. -/
inductive Plan where
  /-- The line begins inside of a comment or string and stays as it is. -/
  | keep
  /-- The line goes `levels` levels to the right of the line `base`, or of the margin. -/
  | indent (base : Option Nat) (levels : Int)
  deriving DecidableEq, Repr

/-- The column that is `levels` levels to the right of a base column, at the margin at least. -/
def columnAt (offset : Nat) (base : Nat) (levels : Int) : Nat :=
  (base + offset * levels : Int).toNat

namespace Script

/-- The keyword that a line beginning at `start` is placed against, and the levels by which it goes
to the right of that keyword's line. A closing keyword goes back to its opener. One that closes
nothing still lines up with the open block if that block could be closed by it. -/
def alignment (script : Script) (start : Nat) : Option (Occurrence × Nat) :=
  let inside := (script.enclosingOpener start).map fun opener => (opener, 1)
  match script.keywordAt start with
  | none => inside
  | some leading =>
    if leading.start = start && leading.keyword.closes then
      match script.matchingOpener start with
      | some opener => some (opener, 0)
      | none =>
        (script.enclosingOpener start).map fun opener =>
          (opener, if opener.keyword.closers.contains leading.keyword then 0 else 1)
    else inside

/-- How to place the line whose first character that is not blank stands at `start`; `lead` is that
character, if the line has one. Each unmatched parenthesis is a level; a closing one at the head of
the line already counts. -/
def plan (script : Script) (start : Nat) (lead : Option Char) : Plan :=
  let context := script.contextAt start
  if context.inCode then
    let depth := if lead = some ')' then context.depth - 1 else context.depth
    match script.alignment start with
    | none => .indent none depth
    | some (opener, levels) =>
      let base := script.lineOf opener.start
      let baseDepth := (script.contextAt (script.lineStart base)).depth
      .indent (some base) (depth - baseDepth + levels)
  else .keep

/-- How to place a line. -/
def planLine (script : Script) (line : Line) : Plan :=
  script.plan line.firstNonblank line.body.head?

end Script

/-- Why lines cannot be placed. -/
inductive LayoutError where
  | offset (fault : OffsetFault)
  /-- There is no line of that number. -/
  | line (fault : LineFault)
  /-- A line would be too long. -/
  | length (fault : LengthFault)
  deriving Repr

/-- The text of an error. -/
def LayoutError.message : LayoutError → String
  | offset fault => fault.message
  | line fault => fault.message
  | length fault => fault.message

namespace Script

/-- The indentation of a line as it is. -/
def indentationOf (script : Script) (line : Nat) : Nat :=
  (script.lines[line]?.map Line.indentation).getD 0

/-- The column that a line should be indented to, with the lines above as they are. -/
def columnFor (script : Script) (bounds : LineBounds) (offset : Nat) : Nat :=
  match script.plan (bounds.firstNonblank script) (bounds.lead? script) with
  | .keep => bounds.indentation script
  | .indent base levels => columnAt offset (base.elim 0 script.indentationOf) levels

/-- The column for the line that a number names, for an offset that is checked first. -/
def columnOf (script : Script) (room : Nat) (number : Int) (offset : Value) :
    Except LayoutError Nat := do
  let columns ← (checkOffset room offset).mapError .offset
  let bounds ← (script.bounds number).mapError .line
  return script.columnFor bounds columns

end Script

/-- A line after it has been placed. -/
structure PlacedLine where
  /-- The column that other lines are placed against. -/
  column : Nat
  /-- The number of spaces written before the body. -/
  indent : Nat
  body : List Char
  deriving DecidableEq, Repr

namespace PlacedLine

/-- The text of a line. -/
def text (placed : PlacedLine) : List Char :=
  List.replicate placed.indent ' ' ++ placed.body

/-- Why a line cannot be written. -/
def fault? (placed : PlacedLine) : Option LengthFault :=
  lengthFault? placed.indent

end PlacedLine

namespace Script

/-- Places a line, where `columns` are those of the lines above. A line of blanks is emptied. -/
def placeLine (script : Script) (offset : Nat) (columns : List Nat) (line : Line) : PlacedLine :=
  match script.planLine line with
  | .keep => { column := line.indentation, indent := 0, body := line.text }
  | .indent base levels =>
    if line.body.isEmpty then { column := 0, indent := 0, body := [] }
    else
      let column := columnAt offset (base.elim 0 fun line => columns[line]?.getD 0) levels
      { column, indent := column, body := line.body }

/-- Places lines from top to bottom, where `columns` are those of the lines above. -/
def placeLines (script : Script) (offset : Nat) (columns : List Nat) :
    List Line → List PlacedLine
  | [] => []
  | line :: below =>
    let placed := script.placeLine offset columns line
    placed :: placeLines script offset (columns ++ [placed.column]) below

/-- All lines, placed. -/
def layout (script : Script) (offset : Nat) : List PlacedLine :=
  script.placeLines offset [] script.lines

end Script

/-- Writes placed lines with the ends of the lines that they replace. What ends the text behind the
last line feed is no line end. -/
def writeLines : List Line → List PlacedLine → List Char
  | [_], [placed] => placed.text
  | line :: lines, placed :: rest => placed.text ++ line.terminator ++ writeLines lines rest
  | _, _ => []

namespace Script

/-- The text of a script with every line indented anew, with `offset` columns per level. -/
@[inline] def reindent (script : Script) (offset : Nat) : List Char :=
  writeLines script.lines (script.layout offset)

/-- Why a layout cannot be written: the fault of the first line that has one. -/
def layoutFault? (placed : List PlacedLine) : Option LengthFault :=
  placed.findSome? PlacedLine.fault?

/-- The number of lines whose text a layout changes. -/
def changedLines (script : Script) (placed : List PlacedLine) : Nat :=
  ((script.lines.zip placed).filter fun (line, placed) => placed.text != line.text).length

/-- Indents a script anew, unless a line would be too long. -/
def tryReindent (script : Script) (offset : Nat) : Except LengthFault (List Char) :=
  match layoutFault? (script.layout offset) with
  | some fault => .error fault
  | none => .ok (script.reindent offset)

/-- Indents a script anew with an offset that is checked first. -/
def format (script : Script) (room : Nat) (offset : Value) : Except LayoutError (List Char) := do
  let columns ← (checkOffset room offset).mapError .offset
  (script.tryReindent columns).mapError .length

end Script

end KixScript

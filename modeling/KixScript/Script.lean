import KixScript.Scan

/-!
# Scripts

A script is a text together with what has been learned about it: its scan and its lines. Queries
about a script never change it; another text is another script.
-/

namespace KixScript

/-- The rows of a text: what stands between its line feeds. -/
def rows : List Char → List (List Char)
  | [] => [[]]
  | c :: rest =>
    if c = '\n' then [] :: rows rest
    else
      match rows rest with
      | [] => [[c]]
      | row :: more => (c :: row) :: more

/-- A line of a script: a row at its offset. -/
structure Line where
  start : Nat
  row : List Char
  deriving DecidableEq, Repr

/-- The rows at their offsets, the first one at `start`. -/
def linesFrom (start : Nat) : List (List Char) → List Line
  | [] => []
  | row :: more => ⟨start, row⟩ :: linesFrom (start + row.length + 1) more

/-- A row without a carriage return at its end. -/
def withoutReturn (row : List Char) : List Char :=
  if row.getLast? = some '\r' then row.dropLast else row

namespace Line

/-- The text of a line, without what ends it. -/
def text (line : Line) : List Char :=
  withoutReturn line.row

/-- The offset behind the text. -/
def stop (line : Line) : Nat :=
  line.start + line.text.length

/-- The blanks at the head of a line. -/
def blanks (line : Line) : List Char :=
  line.text.takeWhile isBlank

/-- The text behind the leading blanks. -/
def body (line : Line) : List Char :=
  line.text.dropWhile isBlank

/-- The offset of the first character that is not blank. -/
def firstNonblank (line : Line) : Nat :=
  line.start + line.blanks.length

/-- What ends a line that is not the last one. -/
def terminator (line : Line) : List Char :=
  line.row.drop line.text.length ++ ['\n']

end Line

/-- Columns from one tab stop to the next. -/
def tabWidth : Nat := 8

/-- The column behind a run of blanks that begins at `column`. -/
def columnAfter (column : Nat) : List Char → Nat
  | [] => column
  | c :: rest =>
    columnAfter (if c = '\t' then (column / tabWidth + 1) * tabWidth else column + 1) rest

/-- The column of the first character of a line that is not blank. -/
def Line.indentation (line : Line) : Nat :=
  columnAfter 0 line.blanks

/-- A script with its scan and its lines. -/
structure Script where
  text : List Char
  scan : Scan
  lines : List Line

namespace Script

/-- Reads a script. -/
def ofText (text : List Char) : Script :=
  { text, scan := Scan.ofText text, lines := linesFrom 0 (rows text) }

/-- The number of characters. -/
def length (script : Script) : Nat :=
  script.text.length

/-- The number of lines; the text behind the last line feed is one, even if it is empty. -/
def lineCount (script : Script) : Nat :=
  script.lines.length

/-- An offset moved into the text, whose end counts. -/
def clamp (script : Script) (offset : Int) : Nat :=
  min offset.toNat script.length

/-- The number of the line that an offset lies on, the offset moved into the text. -/
def lineOf (script : Script) (offset : Int) : Nat :=
  let place := script.clamp offset
  (script.lines.filter fun line => line.start ≤ place).length - 1

/-- The offset of the first character of a line. -/
def lineStart (script : Script) (line : Nat) : Nat :=
  (script.lines[line]?.map Line.start).getD 0

/-- The characters from `start` up to `stop` exclusive. -/
def slice (script : Script) (start stop : Nat) : List Char :=
  (script.text.drop start).take (stop - start)

end Script

/-- A place in a script by line and column, both counted from zero. -/
structure Position where
  line : Nat
  column : Nat
  deriving DecidableEq, Repr

/-- The line and column of an offset. -/
def Script.position (script : Script) (offset : Nat) : Position :=
  let line := script.lineOf offset
  { line, column := offset - script.lineStart line }

end KixScript

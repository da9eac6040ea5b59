import KixScript.Script
import KixScript.Text.Length

/-!
# Line numbers

Lines are numbered from zero. A negative number counts from the end, so that -1 names the last line.
The text of a line stops before the start of the line with the next number; the number after -1 is
0, so the line that -1 names stops before the text begins.
-/

namespace KixScript

/-- Where a line number points: a line starts at `start`, and its text stops at `stop`. -/
structure LineBounds where
  start : Nat
  stop : Int
  deriving DecidableEq, Repr

/-- Why a number names no line. -/
inductive LineFault where
  | noSuchLine
  | notAnIndex
  deriving DecidableEq, Repr

/-- The text of a fault. -/
def LineFault.message : LineFault → String
  | noSuchLine => "list index out of range"
  | notAnIndex => notAnIndexMessage

namespace Script

/-- The line that a number names, if there is one. -/
def line? (script : Script) (number : Int) : Option Line :=
  if 0 ≤ number then script.lines[number.toNat]?
  else if 0 ≤ number + script.lineCount then script.lines[(number + script.lineCount).toNat]?
  else none

/-- The bounds of the line that a number names. -/
def bounds (script : Script) (number : Int) : Except LineFault LineBounds :=
  if !isIndex number then .error .notAnIndex
  else
    match script.line? number with
    | some line => .ok { start := line.start, stop := if number = -1 then -1 else line.stop }
    | none => .error .noSuchLine

end Script

namespace LineBounds

/-- The text of a line. A stop before the text counts from its end. -/
def text (bounds : LineBounds) (script : Script) : List Char :=
  let stop := if bounds.stop < 0 then bounds.stop + script.length else bounds.stop
  script.slice bounds.start stop.toNat

/-- The blanks at the head of a line, up to its stop. -/
def blanks (bounds : LineBounds) (script : Script) : List Char :=
  (script.slice bounds.start bounds.stop.toNat).takeWhile isBlank

/-- The offset of the first character that is not blank. -/
def firstNonblank (bounds : LineBounds) (script : Script) : Nat :=
  bounds.start + (bounds.blanks script).length

/-- The first character that is not blank. -/
def lead? (bounds : LineBounds) (script : Script) : Option Char :=
  if bounds.firstNonblank script < bounds.stop then script.text[bounds.firstNonblank script]?
  else none

/-- The column of the first character that is not blank. -/
def indentation (bounds : LineBounds) (script : Script) : Nat :=
  columnAfter 0 (bounds.blanks script)

end LineBounds

end KixScript

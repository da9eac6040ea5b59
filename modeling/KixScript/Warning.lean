import KixScript.Highlight
import KixScript.Text.Length
import KixScript.Text.LineBreak
import KixScript.Text.Quoted

/-!
# Warnings

A macro is malformed if its name is unknown, or if characters that are dropped follow the name. Each
such macro has a warning, which is shown with the line it stands on and carets under its characters.
-/

namespace KixScript

/-- A remark about some characters of a script. Lines and columns are counted from one. -/
structure Warning where
  message : String
  line : Int
  column : Int
  /-- The number of characters. -/
  length : Int
  deriving DecidableEq, Repr

namespace Warning

/-- The warning in short. -/
def summary (warning : Warning) : String :=
  s!"MacroWarning({quoted warning.message}, line={warning.line}, column={warning.column})"

/-- The line of the source that the warning is about; empty if there is none. -/
def sourceLine (warning : Warning) (source : List Char) : List Char :=
  if 1 ≤ warning.line then
    shownLine ((brokenLines source)[(warning.line - 1).toNat]?.getD [])
  else []

/-- The number of carets: one at least, and none behind the line. -/
def underline (warning : Warning) (source : List Char) : Nat :=
  (max 1 (min warning.length ((warning.sourceLine source).length - warning.column + 1))).toNat

/-- The warning with its source line and carets. -/
def render (warning : Warning) (fileName : String) (source : List Char) : String :=
  let number := toString warning.line
  let margin := String.ofList (List.replicate (number.length + 1) ' ')
  let pad := String.ofList (List.replicate (warning.column - 1).toNat ' ')
  let carets := String.ofList (List.replicate (warning.underline source) '^')
  "warning: " ++ warning.message ++ "\n"
    ++ margin ++ "--> " ++ fileName ++ ":" ++ number ++ ":" ++ toString warning.column ++ "\n"
    ++ margin ++ "|\n"
    ++ number ++ " | " ++ String.ofList (warning.sourceLine source) ++ "\n"
    ++ margin ++ "| " ++ pad ++ carets

/-- Why a warning cannot be rendered: its column or its carets need too many characters. -/
def fault? (warning : Warning) (source : List Char) : Option LengthFault :=
  (lengthFault? (warning.column - 1)).or (lengthFault? (warning.underline source))

/-- The warning with its source line and carets, unless they need too many characters. -/
def tryRender (warning : Warning) (fileName : String) (source : List Char) :
    Except LengthFault String :=
  match warning.fault? source with
  | some fault => .error fault
  | none => .ok (warning.render fileName source)

end Warning

/-- What is wrong with a macro whose characters are given. -/
def malformedMacro (role : FragmentRole) (flagged : List Char) : String :=
  match role with
  | .trailing => "characters '" ++ String.ofList flagged ++ "' after macro are ignored"
  | _ => "unknown macro '" ++ String.ofList flagged ++ "' evaluates to 0"

namespace Script

/-- The warning about a part of a script. -/
def warningFor (script : Script) (part : Part) : Warning :=
  let position := script.position part.start
  { message := malformedMacro part.role (script.slice part.start part.stop)
    line := position.line + 1
    column := position.column + 1
    length := part.stop - part.start }

/-- The warnings about a script, in order. -/
def warnings (script : Script) : List Warning :=
  (script.highlight.filter Part.warning).map script.warningFor

/-- All warnings, rendered one after another. -/
def printWarnings (script : Script) (fileName : String) : String :=
  String.join (script.warnings.map fun warning => warning.render fileName script.text ++ "\n")

end Script

end KixScript

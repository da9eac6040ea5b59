import KixScript.Highlight
import KixScript.Text.Quoted

/-!
# Listings

A listing shows every classified part of a script on a line of its own.
-/

namespace KixScript

namespace Script

/-- The line of a listing for one part; an exclamation mark flags malformed macros. -/
def listPart (script : Script) (part : Part) : String :=
  let position := script.position part.start
  let text := String.ofList (script.slice part.start part.stop)
  s!"{position.line + 1}:{position.column + 1} {part.tokenClass.name} {part.role.label} "
    ++ quoted text ++ (if part.warning then " !\n" else "\n")

/-- The listing of a script. -/
def listing (script : Script) : String :=
  String.join (script.highlight.map script.listPart)

end Script

end KixScript

import KixScript.Block.Navigation
import KixScript.Layout
import KixScript.Outline

/-!
# Editing sessions

A session is a script with a cursor. Each step asks about the place of the cursor, moves it, or
changes the text. A step that fails changes nothing.
-/

namespace KixScript

/-- A script and a place in it; the place may lie outside of the text. -/
structure Session where
  script : Script
  cursor : Int

/-- What can be asked of a session. -/
inductive Step where
  | moveTo (offset : Int)
  | beginningOfFunction (count : Int)
  | endOfFunction (count : Int)
  | enclosingOpener
  | matchingOpener
  | context
  | line
  | column (offset : Value)
  | insert (text : List Char)
  | reindent (offset : Value)
  | outline
  deriving Repr

/-- What a step answers. -/
inductive Answer where
  | done
  | moved (found : Bool)
  | opener (found : Option Occurrence)
  | context (context : Context)
  | line (number indentation : Nat) (text : List Char)
  | column (column : Nat)
  | text (text : List Char)
  | outline (outline : Outline)
  | failed (error : LayoutError)
  deriving Repr

namespace Session

/-- A session with the cursor at the beginning. -/
def start (text : List Char) : Session :=
  { script := Script.ofText text, cursor := 0 }

/-- The session with its cursor at the end of a jump. -/
def follow (session : Session) (jump : Jump) : Answer × Session :=
  (.moved jump.moved, { session with cursor := jump.position })

/-- The session with its cursor at a keyword, if one was found. -/
def visit (session : Session) (found : Option Occurrence) : Answer × Session :=
  (.opener found, { session with cursor := found.elim session.cursor fun o => o.start })

/-- Text inserted at the cursor, which is moved into the text first and then behind what was
inserted. -/
def insert (session : Session) (text : List Char) : Answer × Session :=
  let place := session.script.clamp session.cursor
  let whole := session.script.text.take place ++ text ++ session.script.text.drop place
  (.text whole, { script := Script.ofText whole, cursor := place + text.length })

/-- The script indented anew; the cursor stays where it is. -/
def reindent (session : Session) (room : Nat) (offset : Value) : Answer × Session :=
  match session.script.format room offset with
  | .ok whole => (.text whole, { session with script := Script.ofText whole })
  | .error error => (.failed error, session)

/-- The answer to one step, and the session after it. `room` values may stand inside of one another in
the text of an error. -/
def step (session : Session) (room : Nat) : Step → Answer × Session
  | .moveTo offset => (.done, { session with cursor := offset })
  | .beginningOfFunction count =>
    session.follow (session.script.beginningOfFunction session.cursor count)
  | .endOfFunction count => session.follow (session.script.endOfFunction session.cursor count)
  | .enclosingOpener => session.visit (session.script.enclosingOpener session.cursor)
  | .matchingOpener => session.visit (session.script.matchingOpener session.cursor)
  | .context => (.context (session.script.contextAt session.cursor), session)
  | .line =>
    let number := session.script.lineOf session.cursor
    let text := (session.script.lines[number]?.map Line.text).getD []
    (.line number (session.script.indentationOf number) text, session)
  | .column offset =>
    match session.script.columnOf room (session.script.lineOf session.cursor) offset with
    | .ok column => (.column column, session)
    | .error error => (.failed error, session)
  | .insert text => session.insert text
  | .reindent offset => session.reindent room offset
  | .outline => (.outline session.script.outline, session)

/-- The answers to some steps, each with the cursor after it. -/
def run (session : Session) (room : Nat) : List Step → List (Answer × Int)
  | [] => []
  | step :: rest =>
    let (answer, next) := session.step room step
    (answer, next.cursor) :: next.run room rest

end Session

end KixScript

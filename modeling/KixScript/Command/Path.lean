import KixScript.Text.Quoted

/-!
# Paths

A path is kept as the names on the way. Empty names and names of a single dot lead nowhere and are
dropped; a name of two dots stays, since what it means depends on the files.
-/

namespace KixScript

/-- Where a path begins. -/
inductive PathStart where
  /-- The working directory. -/
  | here
  /-- The root, written with one slash. -/
  | root
  /-- The root, written with two slashes. -/
  | doubleRoot
  deriving DecidableEq, Repr

/-- A path. -/
structure Path where
  start : PathStart
  names : List String
  deriving DecidableEq, Repr

namespace Path

/-- The names between slashes. -/
def splitNames : List Char → List (List Char)
  | [] => [[]]
  | c :: rest =>
    if c = '/' then [] :: splitNames rest
    else
      match splitNames rest with
      | [] => [[c]]
      | name :: more => (c :: name) :: more

/-- Reads a path. Two slashes at the beginning are kept apart from one; three or more are one. -/
def ofString (text : String) : Path :=
  let chars := text.toList
  let start : PathStart :=
    match (chars.takeWhile (· == '/')).length with
    | 0 => .here
    | 2 => .doubleRoot
    | _ => .root
  let names := (splitNames chars).map String.ofList
  { start, names := names.filter fun name => name != "" && name != "." }

/-- A path as it is shown; the working directory itself is a dot. -/
def print (path : Path) : String :=
  let names := "/".intercalate path.names
  match path.start with
  | .here => if path.names.isEmpty then "." else names
  | .root => "/" ++ names
  | .doubleRoot => "//" ++ names

/-- The path of the directory that holds what a path names. -/
def parent (path : Path) : Path :=
  { path with names := path.names.dropLast }

/-- The path to a name inside of a directory. -/
def child (path : Path) (name : String) : Path :=
  { path with names := path.names ++ [name] }

end Path

end KixScript

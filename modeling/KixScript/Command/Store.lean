import KixScript.Command.Path

/-!
# Files

The files that a run can see and change. A path is followed name by name; each name on the way has
to be that of a directory, and neither a name nor the whole path may be too long.
-/

namespace KixScript

/-- A place for a file: the names on the way to it from where `base` says. -/
structure Location where
  /-- The number of directories above the working directory, or none for the root. -/
  base : Option Nat
  names : List String
  deriving DecidableEq, Repr

/-- What stands at a place. -/
inductive Entry where
  | directory
  | file (content : ByteArray)

/-- Files are told apart by their content. -/
instance : DecidableEq Entry
  | .directory, .directory => isTrue rfl
  | .directory, .file _ => isFalse Entry.noConfusion
  | .file _, .directory => isFalse Entry.noConfusion
  | .file first, .file second =>
    match ByteArray.instDecidableEq first second with
    | isTrue same => isTrue (congrArg Entry.file same)
    | isFalse other => isFalse fun same => other (Entry.file.inj same)

/-- Files and directories by their places. The working directory, those above it and the root are
always there. -/
structure Store where
  entries : List (Location × Entry)

/-- Why a file cannot be read or written. -/
inductive FileFault where
  | missing
  | notADirectory
  | isADirectory
  /-- A name or the whole path is too long. -/
  | tooLong
  /-- No path holds the character of code zero, so nothing is looked up. -/
  | zeroCharacter
  deriving DecidableEq, Repr

/-- The text of a fault at a path. -/
def FileFault.message (fault : FileFault) (path : Path) : String :=
  match fault with
  | missing => "[Errno 2] No such file or directory: " ++ quoted path.print
  | notADirectory => "[Errno 20] Not a directory: " ++ quoted path.print
  | isADirectory => "[Errno 21] Is a directory: " ++ quoted path.print
  | tooLong => "[Errno 36] File name too long: " ++ quoted path.print
  | zeroCharacter => "embedded null byte"

/-- The most bytes of a name. -/
def nameLimit : Nat := 255

/-- The most bytes of a path. -/
def pathLimit : Nat := 4095

namespace Location

/-- The place where a path begins. -/
def ofStart : PathStart → Location
  | .here => { base := some 0, names := [] }
  | .root => { base := none, names := [] }
  | .doubleRoot => { base := none, names := [] }

/-- The place that a name leads to from a directory. Two dots lead to the directory above; above the
root is the root. -/
def enter (place : Location) (name : String) : Location :=
  if name != ".." then { place with names := place.names ++ [name] }
  else if place.names.isEmpty then { place with base := place.base.map (· + 1) }
  else { place with names := place.names.dropLast }

end Location

namespace Store

/-- A store without files. -/
def empty : Store :=
  { entries := [] }

/-- What stands at a place. -/
def entry? (store : Store) (place : Location) : Option Entry :=
  if place.names.isEmpty then some .directory else store.entries.lookup place

/-- The store with a place filled. -/
def set (store : Store) (place : Location) (entry : Entry) : Store :=
  { entries := (place, entry) :: store.entries.filter (·.1 != place) }

/-- The place that some names lead to. What stands there is not asked. -/
def follow (store : Store) (place : Location) : List String → Except FileFault Location
  | [] => .ok place
  | name :: rest =>
    match store.entry? place with
    | some .directory =>
      if nameLimit < name.utf8ByteSize then .error .tooLong
      else store.follow (place.enter name) rest
    | some (.file _) => .error .notADirectory
    | none => .error .missing

/-- The place that a path leads to. -/
def locate (store : Store) (path : Path) : Except FileFault Location :=
  if path.names.any fun name => name.toList.contains '\x00' then .error .zeroCharacter
  else if pathLimit < path.print.utf8ByteSize then .error .tooLong
  else store.follow (Location.ofStart path.start) path.names

/-- The content of a file. -/
def read (store : Store) (path : Path) : Except FileFault ByteArray := do
  let place ← store.locate path
  match store.entry? place with
  | some (.file content) => .ok content
  | some .directory => .error .isADirectory
  | none => .error .missing

/-- The store with a file written, be it new or not. -/
def write (store : Store) (path : Path) (content : ByteArray) : Except FileFault Store := do
  let place ← store.locate path
  match store.entry? place with
  | some .directory => .error .isADirectory
  | _ => .ok (store.set place (.file content))

/-- The store with a directory at a place, if nothing stands there yet. -/
def makeDirectory (store : Store) (place : Location) : Store :=
  if (store.entry? place).isSome then store else store.set place .directory

/-- The store with something put where some names lead to. Directories are made on the way. -/
def putAlong (store : Store) (place : Location) (entry : Entry) : List String → Store
  | [] => store.set place entry
  | name :: rest => (store.makeDirectory place).putAlong (place.enter name) entry rest

/-- The store with something put at a path, and the directories on the way. -/
def put (store : Store) (path : Path) (entry : Entry) : Store :=
  store.putAlong (Location.ofStart path.start) entry path.names

/-- The files that are new or other than they were before, with their content. -/
def changedSince (store before : Store) : List (Location × ByteArray) :=
  store.entries.filterMap fun (place, entry) =>
    match entry with
    | .file content => if before.entry? place = some entry then none else some (place, content)
    | .directory => none

end Store

end KixScript

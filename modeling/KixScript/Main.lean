import KixScript.Command.Run

/-!
# The command

The command looks up the files that its arguments name, runs on them, and writes what the run
changed.
-/

namespace KixScript

/-- What stands at a path on the disk. -/
def entryOnDisk? (path : Path) : IO (Option Entry) := do
  try
    let content ← IO.FS.readBinFile path.print
    return some (.file content)
  catch error =>
    match error with
    | .noFileOrDirectory .. => return none
    | _ => return some .directory

/-- Adds what stands on the way along a path. -/
def lookUp (store : Store) (path : Path) : IO Store :=
  (List.range path.names.length).foldlM
    (fun store count => do
      let here := { path with names := path.names.take (count + 1) }
      match store.locate here with
      | .ok place => return (← entryOnDisk? here).elim store (store.set place)
      | .error _ => return store)
    store

/-- The paths that a run may read or write. -/
def pathsOf (arguments : Arguments) : List Path :=
  let input := Path.ofString (arguments.input.getD "")
  [configPath arguments input, input] ++ (arguments.output.map Path.ofString).toList

/-- Ends as a run has ended; a fault that no run can mend is told and is a failure. -/
def finish : Ending → IO UInt32
  | .exit code => return code.toUInt32
  | .usage code => return code.toUInt32
  | .fileFault path fault => do
    IO.eprintln (fault.message path)
    return 1
  | .configFault fault => do
    IO.eprintln fault.message
    return 1
  | .lengthFault fault => do
    IO.eprintln fault.message
    return 1

/-- Runs the command on the disk. -/
def runOnDisk (platform : Platform) (arguments : List String) : IO UInt32 := do
  let request := (Arguments.read platform.release arguments).toOption
  let store ← ((request.map pathsOf).getD []).foldlM lookUp .empty
  let outcome := run platform store arguments
  if let some output := request.bind Arguments.output then
    for (_, content) in outcome.store.changedSince store do
      IO.FS.writeBinFile (Path.ofString output).print content
  IO.print outcome.stdout
  IO.eprint outcome.stderr
  finish outcome.ending

end KixScript

/-- The command. -/
def main (arguments : List String) : IO UInt32 :=
  KixScript.runOnDisk .usual arguments

import KixScript.Command.Options
import KixScript.Layout
import KixScript.Listing
import KixScript.Outline
import KixScript.Warning

/-!
# Runs

A run reads one script and writes one text: the script indented anew, its outline, or the warnings
about it. It changes no file but its output.
-/

namespace KixScript

/-- How a run ends. -/
inductive Ending where
  /-- With an exit code. -/
  | exit (code : Nat)
  /-- With an exit code, because of the arguments alone. -/
  | usage (code : Nat)
  /-- The output cannot be written, or the path of the input cannot be one. -/
  | fileFault (path : Path) (fault : FileFault)
  /-- The configuration file is given up. -/
  | configFault (fault : ConfigFault)
  /-- The text that would be written is too long. -/
  | lengthFault (fault : LengthFault)

/-- What a run leaves behind. -/
structure Outcome where
  ending : Ending
  stdout : String
  stderr : String
  store : Store

/-- How the command is used. -/
def usageText : String :=
  "usage: kixtart [-h] [-o OUTPUT] [--offset N] [--config FILE] [--check]\n"
    ++ "               [--index] [--debug] [-v]\n"
    ++ "               input\n"

/-- The help text. -/
def helpText : String :=
  usageText
    ++ "\nReindent, check and index KiXtart scripts\n"
    ++ "\npositional arguments:\n"
    ++ "  input                 Input .kix file\n"
    ++ "\noptions:\n"
    ++ "  -h, --help            show this help message and exit\n"
    ++ "  -o OUTPUT, --output OUTPUT\n"
    ++ "                        Output file (default: stdout)\n"
    ++ "  --offset N            Columns per indentation level (default: 4)\n"
    ++ "  --config FILE         Config file (default: auto-discover kixtart.toml)\n"
    ++ "  --check               Report malformed macros\n"
    ++ "  --index               List functions and labels\n"
    ++ "  --debug               Dump classified tokens to stderr\n"
    ++ "  -v, --verbose         Enable debug logging\n"

/-- A text and an exit code. -/
structure Result where
  text : String
  code : Nat

/-- What a script comes to, and what is said about it on the way. -/
structure Product where
  result : Except LengthFault Result
  log : String

/-- A line of the log, if a log is wanted. -/
def logLine (verbose : Bool) (source message : String) : String :=
  if verbose then source ++ ": " ++ message ++ "\n" else ""

/-- Works on a script. Warnings go before the outline, and the outline before the layout. -/
def process (options : Options) (verbose : Bool) (source : List Char) : Product :=
  let script := Script.ofText source
  let name := options.input.print
  let log :=
    logLine verbose "kixtart.cli" s!"read {script.length} characters from {name}"
      ++ if options.debug then script.listing else ""
  if options.check then
    let code := if script.warnings.isEmpty then 0 else 1
    { result := .ok { text := script.printWarnings name, code }, log }
  else if options.index then { result := .ok { text := script.printOutline, code := 0 }, log }
  else
    let placed := script.layout options.offset
    match Script.layoutFault? placed with
    | some fault => { result := .error fault, log }
    | none =>
      let text := String.ofList (writeLines script.lines placed)
      let summary := s!"reindented {script.changedLines placed} of {script.lineCount} lines"
      { result := .ok { text, code := 0 }
        log := log ++ logLine verbose "kixtart.indent" summary }

/-- An outcome that changes no file. -/
def Outcome.unchanged (store : Store) (ending : Ending) (stdout stderr : String) : Outcome :=
  { ending, stdout, stderr, store }

/-- Writes what a run came to. -/
def deliver (store : Store) (output : Option Path) (product : Product) : Outcome :=
  match product.result, output with
  | .error fault, _ => .unchanged store (.lengthFault fault) "" product.log
  | .ok result, none => .unchanged store (.exit result.code) result.text product.log
  | .ok result, some path =>
    match store.write path result.text.toUTF8 with
    | .ok store => { ending := .exit result.code, stdout := "", stderr := product.log, store }
    | .error fault => .unchanged store (.fileFault path fault) "" product.log

/-- The outcome of a run that tells an error and does nothing. -/
def Outcome.failed (store : Store) (message : String) : Outcome :=
  .unchanged store (.exit 2) "" ("error: " ++ message ++ "\n")

/-- Runs with some options. -/
def runWith (store : Store) (options : Options) (verbose : Bool) : Outcome :=
  match store.read options.input with
  | .error .zeroCharacter => .unchanged store (.fileFault options.input .zeroCharacter) "" ""
  | .error fault => .failed store (fault.message options.input)
  | .ok content =>
    match Utf8.decode content with
    | .error fault => .failed store fault.message
    | .ok source => deliver store options.output (process options verbose source)

/-- Runs the command. -/
def run (platform : Platform) (store : Store) (arguments : List String) : Outcome :=
  match Arguments.read platform.release arguments with
  | .error .help => .unchanged store (.usage 0) helpText ""
  | .error (.refused error) =>
    .unchanged store (.usage 2) "" (usageText ++ "kixtart: error: " ++ error.message ++ "\n")
  | .ok request =>
    match Options.resolve platform store request with
    | .error (.unreadable fault) => .unchanged store (.configFault fault) "" ""
    | .error error => .failed store error.message
    | .ok options => runWith store options request.verbose

end KixScript

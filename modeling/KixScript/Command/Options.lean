import KixScript.Command.Arguments
import KixScript.Command.Store
import KixScript.Config.Toml.Reader
import KixScript.Text.Utf8

/-!
# Options of a run

What a run works with follows from its arguments and from the configuration file, in which the
number of columns per level can be set. Arguments count more than the file, but the file is checked
in any case.
-/

namespace KixScript

/-- What a run works with. -/
structure Options where
  input : Path
  output : Option Path
  offset : Nat
  check : Bool
  index : Bool
  debug : Bool

/-- Why a configuration file is given up, rather than found malformed. -/
inductive ConfigFault where
  /-- It cannot even be looked for. -/
  | unreachable (path : Path) (fault : FileFault)
  /-- It is no text. -/
  | undecodable (fault : Utf8.Fault)
  /-- It holds a number that is too large. -/
  | tooLarge (message : String)
  /-- It holds values that are nested too deep. -/
  | tooDeep (message : String)

/-- The text of a fault. -/
def ConfigFault.message : ConfigFault → String
  | unreachable path fault => fault.message path
  | undecodable fault => fault.message
  | tooLarge message => message
  | tooDeep message => message

/-- Why a run has no options. -/
inductive OptionsError where
  | offset (error : OffsetError)
  | malformed (path : Path) (message : String)
  | unreadable (fault : ConfigFault)

/-- The text of an error. -/
def OptionsError.message : OptionsError → String
  | offset error => error.message
  | malformed path message => path.print ++ ": " ++ message
  | unreadable fault => fault.message

/-- The name of the configuration file next to a script. -/
def configName : String := "kixtart.toml"

/-- The configuration file: the one that is asked for, or the one next to the input. -/
def configPath (arguments : Arguments) (input : Path) : Path :=
  (arguments.config.map Path.ofString).getD (input.parent.child configName)

/-- What an error of the reader means for the file at a path. -/
def OptionsError.ofReadError (path : Path) : Toml.ReadError → OptionsError
  | .malformed message => malformed path message
  | .tooLarge message => unreadable (.tooLarge message)
  | .tooDeep message => unreadable (.tooDeep message)

/-- The fields of the configuration file; none if there is no such file. -/
def loadConfig (platform : Platform) (store : Store) (path : Path) :
    Except OptionsError Toml.Fields :=
  match store.read path with
  | .error .tooLong => .error (.unreadable (.unreachable path .tooLong))
  | .error _ => .ok []
  | .ok content =>
    match Utf8.decode content with
    | .error fault => .error (.unreadable (.undecodable fault))
    | .ok text => (Toml.read platform.readRoom (String.ofList text)).mapError (.ofReadError path)

/-- The offset that a configuration sets. -/
def configuredOffset? (config : Toml.Fields) : Option Value :=
  match config.lookup "indent" with
  | some (.table fields) => fields.lookup "offset"
  | _ => none

namespace Options

/-- What it means for a run that an offset gives no columns. A refusal that cannot be told is a fault
of the value. -/
def refusal : OffsetFault → OptionsError
  | .refused error => .offset error
  | .untold .tooManyDigits => .unreadable (.tooLarge PrintFault.tooManyDigits.message)
  | .untold .tooDeep => .unreadable (.tooDeep PrintFault.tooDeep.message)

/-- The offset that some value sets, or else another one. -/
def offsetFrom (platform : Platform) (value : Option Value) (otherwise : Nat) :
    Except OptionsError Nat :=
  match value with
  | some value => (checkOffset platform.printRoom value).mapError refusal
  | none => .ok otherwise

/-- The options for some arguments. -/
def resolve (platform : Platform) (store : Store) (arguments : Arguments) :
    Except OptionsError Options := do
  let input := Path.ofString (arguments.input.getD "")
  let config ← loadConfig platform store (configPath arguments input)
  let configured ← offsetFrom platform (configuredOffset? config) defaultIndentOffset
  let offset ← offsetFrom platform arguments.offset configured
  return {
    input
    output := arguments.output.map Path.ofString
    offset
    check := arguments.check
    index := arguments.index
    debug := arguments.debug }

end Options

end KixScript

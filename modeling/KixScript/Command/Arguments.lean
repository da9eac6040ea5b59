import KixScript.Command.Platform
import KixScript.Setting
import KixScript.Text.Numeral

/-!
# Command-line arguments

Arguments are first told apart: options, values, and the mark `--`, behind which there are only
values. Then they are taken from left to right. A long option may be shortened as long as it stays
the only one with that beginning, and short ones may share one dash.

The releases of these conventions differ where options share a dash (`Release.shares`,
`Release.behindLetter`, `Release.strayLetters`), and where the mark is the value of an option
(`Release.fileName?`, `Release.columns`).
-/

namespace KixScript

/-- The options. -/
inductive Switch where
  | help
  | output
  | offset
  | config
  | check
  | index
  | debug
  | verbose
  deriving DecidableEq, Repr

namespace Switch

/-- The spellings of an option. -/
def spellings : Switch → List String
  | help => ["-h", "--help"]
  | output => ["-o", "--output"]
  | offset => ["--offset"]
  | config => ["--config"]
  | check => ["--check"]
  | index => ["--index"]
  | debug => ["--debug"]
  | verbose => ["-v", "--verbose"]

/-- Every option, in the order of the help text. -/
def all : List Switch :=
  [help, output, offset, config, check, index, debug, verbose]

/-- Whether a value belongs to an option. -/
def takesValue : Switch → Bool
  | output => true
  | offset => true
  | config => true
  | _ => false

/-- An option as messages name it. -/
def title (switch : Switch) : String :=
  "/".intercalate switch.spellings

/-- The spellings with their options. -/
def table : List (String × Switch) :=
  all.flatMap fun switch => switch.spellings.map (·, switch)

/-- The option of a spelling. -/
def ofSpelling? (spelling : String) : Option Switch :=
  table.lookup spelling

end Switch

/-- Why arguments are refused. -/
inductive ArgumentError where
  | inputRequired
  | unrecognized (arguments : List String)
  | valueExpected (switch : Switch)
  | notAnInteger (text : String)
  | valueIgnored (switch : Switch) (text : String)
  | ambiguous (argument : String) (candidates : List String)
  deriving DecidableEq, Repr

/-- The text of an error. -/
def ArgumentError.message : ArgumentError → String
  | inputRequired => "the following arguments are required: input"
  | unrecognized arguments => "unrecognized arguments: " ++ " ".intercalate arguments
  | valueExpected switch => "argument " ++ switch.title ++ ": expected one argument"
  | notAnInteger text => "argument --offset: invalid int value: " ++ quoted text
  | valueIgnored switch text =>
    "argument " ++ switch.title ++ ": ignored explicit argument " ++ quoted text
  | ambiguous argument candidates =>
    "ambiguous option: " ++ argument ++ " could match " ++ ", ".intercalate candidates

/-- Why arguments ask for no run: help is wanted, or they are refused. -/
inductive ArgumentExit where
  | help
  | refused (error : ArgumentError)
  deriving DecidableEq, Repr

/-- What the arguments ask for. -/
structure Arguments where
  input : Option String
  output : Option String
  offset : Option Value
  config : Option String
  check : Bool
  index : Bool
  debug : Bool
  verbose : Bool

/-- What nothing asks for. -/
def Arguments.none : Arguments :=
  { input := .none, output := .none, offset := .none, config := .none, check := false,
    index := false, debug := false, verbose := false }

/-! ## Telling arguments apart -/

/-- A value in the same argument as its option: behind an equals sign, or behind a letter. -/
structure Attached where
  equals : Bool
  text : String
  deriving DecidableEq, Repr

/-- The kind of an argument. -/
inductive ArgumentKind where
  | value
  /-- The mark `--`. -/
  | mark
  /-- An option by its short or long spelling, with the value written in the same argument. -/
  | option (switch : Switch) (short : Bool) (attached : Option Attached)
  /-- An option that does not exist. -/
  | unknown
  deriving DecidableEq, Repr

/-- A text before and behind its first equals sign. -/
def splitEquals (text : List Char) : List Char × Option (List Char) :=
  match text.dropWhile (· != '=') with
  | [] => (text, none)
  | _ :: value => (text.takeWhile (· != '='), some value)

/-- Whether a dash and what follows is a negative number: digits, or digits around a point of which
the first ones may be missing. A line feed behind it does not count. -/
def isNegativeNumber (text : List Char) : Bool :=
  let body := (text.drop 1)
  let body := if body.getLast? = some '\n' then body.dropLast else body
  match body.dropWhile isDecimalDigit with
  | [] => !body.isEmpty
  | '.' :: part => !part.isEmpty && part.all isDecimalDigit
  | _ => false

/-- The value behind an equals sign. -/
def behindEquals (value : List Char) : Attached :=
  { equals := true, text := String.ofList value }

/-- The readings of an argument as a shortened long option, or as a short one with its value. -/
def readings (text : List Char) : List (String × Switch × Option Attached) :=
  match text with
  | '-' :: '-' :: _ =>
    let (name, value) := splitEquals text
    (Switch.table.filter fun (spelling, _) => name.isPrefixOf spelling.toList).map
      fun (spelling, switch) => (spelling, switch, value.map behindEquals)
  | '-' :: c :: rest =>
    (Switch.table.filter fun (spelling, _) => spelling == String.ofList ['-', c]).map
      fun (spelling, switch) =>
        (spelling, switch, some { equals := false, text := String.ofList rest })
  | _ => []

/-- Whether a spelling is a short one. -/
def isShort (spelling : String) : Bool :=
  spelling.length = 2

/-- Tells the kind of an argument before the mark. -/
def kindOf (argument : String) : Except ArgumentError ArgumentKind :=
  let text := argument.toList
  if text.head? ≠ some '-' || text.length = 1 then .ok .value
  else
    let (name, value) := splitEquals text
    let name := String.ofList name
    match Switch.ofSpelling? argument, Switch.ofSpelling? name with
    | some switch, _ => .ok (.option switch (isShort argument) none)
    | none, some switch => .ok (.option switch (isShort name) (value.map behindEquals))
    | none, none =>
      match readings text with
      | [(spelling, switch, value)] => .ok (.option switch (isShort spelling) value)
      | [] =>
        if isNegativeNumber text || text.contains ' ' then .ok .value else .ok .unknown
      | several => .error (.ambiguous argument (several.map (·.1)))

/-- Tells all arguments apart. -/
def tellApart : List String → Except ArgumentError (List (String × ArgumentKind))
  | [] => .ok []
  | argument :: rest =>
    if argument = "--" then .ok ((argument, .mark) :: rest.map (·, .value))
    else do
      let kind ← kindOf argument
      let others ← tellApart rest
      return (argument, kind) :: others

/-! ## Taking arguments -/

/-- An option with its value, as it takes effect. -/
structure Setting where
  switch : Switch
  value : String

/-- What one argument with options comes to. -/
structure Cluster where
  settings : List Setting
  /-- The option that takes the next argument as its value. -/
  last : Option Switch
  /-- What is no option. -/
  extra : List String

namespace Release

/-- The value behind the letter of an option that shares its dash with others. Only in early releases
does an equals sign before it belong to it. -/
def behindLetter : Release → List Char → List Char
  | current, '=' :: value => value
  | _, value => value

/-- What comes of letters behind `switch` of which the first one is no option. In early releases they
are taken for a value, which `switch` cannot have; later only if they begin with a dash. -/
def strayLetters (switch : Switch) (letters : List Char) : Release → Except ArgumentError Cluster
  | early => .error (.valueIgnored switch (String.ofList letters))
  | current =>
    if letters.head? = some '-' then .error (.valueIgnored switch (String.ofList letters))
    else
      .ok
        { settings := [⟨switch, ""⟩], last := none, extra := [String.ofList ('-' :: letters)] }

/-- The options that share a dash, of which `switch` is the first one and the letters given follow
it. -/
def sharedDash (release : Release) (switch : Switch) : List Char → Except ArgumentError Cluster
  | [] =>
    .ok
      (if switch.takesValue then { settings := [], last := some switch, extra := [] }
      else { settings := [⟨switch, ""⟩], last := none, extra := [] })
  | c :: rest =>
    if switch.takesValue then
      let value := String.ofList (release.behindLetter (c :: rest))
      .ok { settings := [⟨switch, value⟩], last := none, extra := [] }
    else if release = .current && c = '=' then
      .error (.valueIgnored switch (String.ofList rest))
    else
      match Switch.ofSpelling? (String.ofList ['-', c]) with
      | none => release.strayLetters switch (c :: rest)
      | some next => do
        let others ← release.sharedDash next rest
        return { others with settings := ⟨switch, ""⟩ :: others.settings }

/-- Whether what is written behind a short option without a value can be more of these. Behind an
equals sign it can in early releases only. -/
def shares (release : Release) (attached : Attached) : Bool :=
  !(release = .current && attached.equals) && attached.text ≠ ""

/-- What one argument with an option comes to. -/
def cluster (release : Release) (switch : Switch) (short : Bool) :
    Option Attached → Except ArgumentError Cluster
  | none => release.sharedDash switch []
  | some attached =>
    if switch.takesValue then
      .ok { settings := [⟨switch, attached.text⟩], last := none, extra := [] }
    else if short && release.shares attached then
      release.sharedDash switch attached.text.toList
    else .error (.valueIgnored switch attached.text)

/-- A value that names a file. The empty one counts as not given, in early releases also the mark. -/
def fileName? (release : Release) (text : String) : Option String :=
  if text = "" || (release = .early && text = "--") then none else some text

/-- The value of an offset. Early releases drop the mark from it, which leaves a list of nothing. -/
def columns (release : Release) (text : String) : Except ArgumentError Value :=
  if release = .early && text = "--" then .ok (.list [])
  else
    match integerOf? text.toList with
    | some offset => .ok (.integer offset)
    | none => .error (.notAnInteger text)

end Release

namespace Arguments

/-- Puts one setting into effect. The last one of an option counts. -/
def apply (release : Release) (arguments : Arguments) (setting : Setting) :
    Except ArgumentExit Arguments :=
  match setting.switch with
  | .help => .error .help
  | .output => .ok { arguments with output := release.fileName? setting.value }
  | .config => .ok { arguments with config := release.fileName? setting.value }
  | .offset =>
    match release.columns setting.value with
    | .ok offset => .ok { arguments with offset := some offset }
    | .error error => .error (.refused error)
  | .check => .ok { arguments with check := true }
  | .index => .ok { arguments with index := true }
  | .debug => .ok { arguments with debug := true }
  | .verbose => .ok { arguments with verbose := true }

/-- Puts some settings into effect. -/
def applyAll (release : Release) (arguments : Arguments) (settings : List Setting) :
    Except ArgumentExit Arguments :=
  settings.foldlM (apply release) arguments

/-- Takes arguments from left to right. The first value is the input; all others, and options that
do not exist, are returned as `extra` ones. A mark directly before or behind the input is passed
over. -/
def take (release : Release) (arguments : Arguments) (extra : List String) :
    List (String × ArgumentKind) → Except ArgumentExit (Arguments × List String)
  | [] => .ok (arguments, extra)
  | (argument, .unknown) :: rest => take release arguments (extra ++ [argument]) rest
  | (argument, .value) :: rest =>
    if arguments.input.isSome then take release arguments (extra ++ [argument]) rest
    else
      match rest with
      | (_, .mark) :: rest => take release { arguments with input := some argument } extra rest
      | rest => take release { arguments with input := some argument } extra rest
  | (argument, .mark) :: rest =>
    match arguments.input, rest with
    | .none, (value, _) :: rest => take release { arguments with input := some value } extra rest
    | _, rest => take release arguments (extra ++ [argument]) rest
  | (_, .option switch short attached) :: rest =>
    match release.cluster switch short attached with
    | .error error => .error (.refused error)
    | .ok ⟨settings, .none, more⟩ => do
      let arguments ← arguments.applyAll release settings
      take release arguments (extra ++ more) rest
    | .ok ⟨settings, some last, more⟩ =>
      match rest with
      | (value, .value) :: rest => do
        let arguments ← arguments.applyAll release (settings ++ [⟨last, value⟩])
        take release arguments (extra ++ more) rest
      | _ => .error (.refused (.valueExpected last))

/-- Reads the arguments of a run. -/
def read (release : Release) (arguments : List String) : Except ArgumentExit Arguments := do
  let kinds ← (tellApart arguments).mapError .refused
  let (result, extra) ← Arguments.none.take release [] kinds
  if result.input.isNone then throw (.refused .inputRequired)
  if !extra.isEmpty then throw (.refused (.unrecognized extra))
  return result

end Arguments

end KixScript

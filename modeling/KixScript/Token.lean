import KixScript.Lexicon
import KixScript.Character

/-!
# Classified tokens

A token falls into fragments, each with a class and a role. A token of several heads, such as
`$a@Date`, has the fragments of each in turn. `fragments_text` says that the fragments, written one
after another, are the token.
-/

namespace KixScript

/-- What a fragment of a token is to the language. -/
inductive TokenClass where
  | command
  | builtinFunction
  /-- The name behind `Function` on the same line. -/
  | functionDeclaration
  | label
  | macroName
  /-- Characters that are dropped behind a macro name. -/
  | macroTrailing
  | variableName
  | punctuation
  | unclassified
  deriving DecidableEq, Repr

/-- The printed name of a class. -/
def TokenClass.name : TokenClass → String
  | command => "COMMAND"
  | builtinFunction => "BUILTIN_FUNCTION"
  | functionDeclaration => "USER_FUNCTION_DECLARATION"
  | label => "LABEL"
  | macroName => "MACRO"
  | macroTrailing => "MACRO_TRAILING_WARNING"
  | variableName => "VARIABLE"
  | punctuation => "PUNCTUATION"
  | unclassified => "UNCLASSIFIED"

/-- What a fragment does in its token. -/
inductive FragmentRole where
  | name
  /-- A `$` that reads the variable named by what follows. -/
  | read
  /-- The last `$` of a run, with its name. -/
  | assign
  /-- A macro name at the head of a longer run, or all of it. -/
  | head
  /-- What is left of the run behind a macro name. -/
  | trailing
  /-- A macro that does not exist. -/
  | unknown
  deriving DecidableEq, Repr

namespace FragmentRole

/-- The printed name of a role. -/
def label : FragmentRole → String
  | name => "name"
  | read => "read"
  | assign => "assign"
  | head => "prefix"
  | trailing => "trailing"
  | unknown => "unknown"

/-- Malformed macros are worth a warning. -/
def warns : FragmentRole → Bool
  | trailing => true
  | unknown => true
  | _ => false

end FragmentRole

/-- A classified piece of a token. -/
structure Fragment where
  text : List Char
  tokenClass : TokenClass
  role : FragmentRole
  deriving DecidableEq, Repr

/-- Where a token stands, as far as its class hangs on it. -/
structure Surroundings where
  /-- The token follows `Function` on the same line. -/
  afterFunction : Bool
  /-- The token follows a `.`, so it names a member of an object. -/
  member : Bool
  deriving DecidableEq, Repr

/-- A token that nothing of interest precedes. -/
def Surroundings.plain : Surroundings :=
  { afterFunction := false, member := false }

namespace Fragment

/-- A macro with the sigil before `run`: its longest known name, and what is left of the run. -/
def ofMacro (run : List Char) : List Fragment :=
  match longestMacro? run with
  | none => [⟨'@' :: run, .unclassified, .unknown⟩]
  | some known =>
    let named : Fragment := ⟨'@' :: run.take known.length, .macroName, .head⟩
    match run.drop known.length with
    | [] => [named]
    | dropped => [named, ⟨dropped, .macroTrailing, .trailing⟩]

/-- The class of a name. A member of an object is never a command or function. -/
def classOfName (place : Surroundings) (name : List Char) : TokenClass :=
  if place.member then .unclassified
  else if isCommandName name then .command
  else if place.afterFunction then .functionDeclaration
  else if isFunctionName name then .builtinFunction
  else .unclassified

/-- The fragments of the head that begins with `c`, and what follows it. -/
def ofHead (place : Surroundings) (c : Char) (rest : List Char) : List Fragment × List Char :=
  let run := rest.takeWhile isUserChar
  let behind := rest.dropWhile isUserChar
  if c = '@' then (ofMacro run, behind)
  else if c = '$' then
    if rest.head? = some '$' then ([⟨['$'], .variableName, .read⟩], rest)
    else ([⟨'$' :: run, .variableName, .assign⟩], behind)
  else if c = ':' then
    if run.isEmpty then ([⟨[':'], .punctuation, .name⟩], rest)
    else ([⟨':' :: run, .label, .name⟩], behind)
  else if c = '?' then ([⟨['?'], .command, .name⟩], rest)
  else if isUserChar c then ([⟨c :: run, classOfName place (c :: run), .name⟩], behind)
  else
    ([⟨c :: rest.takeWhile (!isWordChar ·), .punctuation, .name⟩],
      rest.dropWhile (!isWordChar ·))

/-- The text of several fragments. -/
def textOf (fragments : List Fragment) : List Char :=
  fragments.flatMap Fragment.text

theorem textOf_cons (fragment : Fragment) (rest : List Fragment) :
    textOf (fragment :: rest) = fragment.text ++ textOf rest :=
  List.flatMap_cons

theorem textOf_ofMacro (run : List Char) : textOf (ofMacro run) = '@' :: run := by
  unfold ofMacro
  split
  · simp [textOf]
  · rename_i known _
    have whole := List.take_append_drop known.length run
    dsimp only
    split
    · rename_i nothing
      rw [nothing, List.append_nil] at whole
      simp [textOf, whole]
    · simp [textOf, whole]

theorem ofHead_append (place : Surroundings) (c : Char) (rest : List Char) :
    textOf (ofHead place c rest).1 ++ (ofHead place c rest).2 = c :: rest := by
  unfold ofHead
  dsimp only
  split
  · rename_i h
    simp [textOf_ofMacro, h, List.takeWhile_append_dropWhile]
  split
  · rename_i h
    split <;> simp [textOf, h, List.takeWhile_append_dropWhile]
  split
  · rename_i h
    split <;> simp [textOf, h, List.takeWhile_append_dropWhile]
  split
  · rename_i h
    simp [textOf, h]
  split <;> simp [textOf, List.takeWhile_append_dropWhile]

theorem textOf_ofMacro_ne_nil (run : List Char) : textOf (ofMacro run) ≠ [] := by
  simp [textOf_ofMacro]

theorem textOf_ofHead_ne_nil (place : Surroundings) (c : Char) (rest : List Char) :
    textOf (ofHead place c rest).1 ≠ [] := by
  unfold ofHead
  dsimp only
  split
  · exact textOf_ofMacro_ne_nil _
  split
  · split <;> simp [textOf]
  split
  · split <;> simp [textOf]
  split
  · simp [textOf]
  split <;> simp [textOf]

/-- Classifying a head leaves less to classify. -/
theorem ofHead_length_lt (place : Surroundings) (c : Char) (rest : List Char) :
    (ofHead place c rest).2.length < (c :: rest).length := by
  have whole := congrArg List.length (ofHead_append place c rest)
  have some_text := List.length_pos_iff.2 (textOf_ofHead_ne_nil place c rest)
  rw [List.length_append] at whole
  omega

end Fragment

/-- The fragments of a token. Only its first head can be a declaration or a member. -/
def fragments (place : Surroundings) : List Char → List Fragment
  | [] => []
  | c :: rest =>
    (Fragment.ofHead place c rest).1 ++ fragments .plain (Fragment.ofHead place c rest).2
termination_by token => token.length
decreasing_by exact Fragment.ofHead_length_lt place c rest

/-- The fragments of a token, written one after another, are the token. -/
theorem fragments_text (place : Surroundings) (token : List Char) :
    Fragment.textOf (fragments place token) = token := by
  fun_induction fragments place token with
  | case1 => rfl
  | case2 place c rest ih =>
    rw [Fragment.textOf, List.flatMap_append, ← Fragment.textOf, ← Fragment.textOf, ih,
      Fragment.ofHead_append]

/-- A fragment in its place. -/
structure Part where
  start : Nat
  stop : Nat
  tokenClass : TokenClass
  role : FragmentRole
  deriving DecidableEq, Repr

/-- Whether the part is a malformed macro. -/
def Part.warning (part : Part) : Bool :=
  part.role.warns

/-- The fragments in their places, the first one at `start`. -/
def partsFrom (start : Nat) : List Fragment → List Part
  | [] => []
  | fragment :: rest =>
    let stop := start + fragment.text.length
    ⟨start, stop, fragment.tokenClass, fragment.role⟩ :: partsFrom stop rest

/-- The parts of a token by themselves. -/
def classify (place : Surroundings) (token : List Char) : List Part :=
  partsFrom 0 (fragments place token)

/-- The class of a token is that of its first part. -/
def classOf (parts : List Part) : TokenClass :=
  (parts.head?.map Part.tokenClass).getD .unclassified

end KixScript

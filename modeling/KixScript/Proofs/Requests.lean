import KixScript.Proofs.Checks

/-!
# Requests

What arguments ask for is told by the rules of `Asks`, one for each kind of argument, and reading
arguments is to follow these rules (`read_eq_ok_iff`). By the rules the output option can be left out:
what remains asks for the same, but printed (`read_withoutOutput`). This holds for every release of the
conventions for arguments.
-/

namespace KixScript

/-- From what is asked for already, some arguments lead to what is asked for in the end. -/
inductive Asks (release : Release) : Arguments → List String → Arguments → Prop where
  | done {arguments : Arguments} : Asks release arguments [] arguments
  | input {arguments request : Arguments} {word : String} {rest : List String}
      (kind : kindOf word = .ok .value) (first : arguments.input = none)
      (no_mark : rest.head? ≠ some "--")
      (more : Asks release { arguments with input := some word } rest request) :
      Asks release arguments (word :: rest) request
  /-- The mark directly behind the input is passed over, and nothing follows it. -/
  | marked {arguments : Arguments} {word : String}
      (kind : kindOf word = .ok .value) (first : arguments.input = none) :
      Asks release arguments [word, "--"] { arguments with input := some word }
  /-- Behind the mark there is the input, whatever it looks like. -/
  | behind {arguments : Arguments} {word : String} (first : arguments.input = none) :
      Asks release arguments ["--", word] { arguments with input := some word }
  | flags {arguments arguments' request : Arguments} {word : String} {rest : List String}
      {switch : Switch} {short : Bool} {attached : Option Attached} {settings : List Setting}
      (kind : kindOf word = .ok (.option switch short attached))
      (given : release.cluster switch short attached = .ok ⟨settings, none, []⟩)
      (applied : arguments.applyAll release settings = .ok arguments')
      (more : Asks release arguments' rest request) :
      Asks release arguments (word :: rest) request
  | valued {arguments arguments' request : Arguments} {word value : String} {rest : List String}
      {switch last : Switch} {short : Bool} {attached : Option Attached} {settings : List Setting}
      (kind : kindOf word = .ok (.option switch short attached))
      (given : release.cluster switch short attached = .ok ⟨settings, some last, []⟩)
      (value_kind : kindOf value = .ok .value)
      (applied : arguments.applyAll release (settings ++ [⟨last, value⟩]) = .ok arguments')
      (more : Asks release arguments' rest request) :
      Asks release arguments (word :: value :: rest) request

/-- What is asked for, but printed and not written to a file. -/
def Arguments.printed (arguments : Arguments) : Arguments :=
  { arguments with output := .none }

/-- Some arguments are options with the given settings. -/
def StandFor (release : Release) (words : List String) (settings : List Setting) : Prop :=
  ∀ {arguments arguments' request : Arguments} {rest : List String},
    arguments.applyAll release settings = .ok arguments' → Asks release arguments' rest request →
      Asks release arguments (words ++ rest) request

/-- What an argument with the output option leaves without it, and whether the value of the option is
the next argument. Options that share a dash with it stay. -/
def outputCut (word : String) : Option (List String × Bool) :=
  match kindOf word with
  | .ok (.option .output _ attached) => some ([], attached.isNone)
  | .ok (.option .verbose true (some attached)) =>
    match attached.text.toList.dropWhile (· != 'o') with
    | [] => none
    | _ :: value =>
      some ([String.ofList ('-' :: 'v' :: attached.text.toList.takeWhile (· != 'o'))], value.isEmpty)
  | _ => none

/-- How the output option is cut from an argument with some settings and an option that takes the next
argument: there is none, or it is the last one, with its value behind it or in the next argument. -/
inductive Cut (release : Release) (word : String) : List Setting → Option Switch → Prop where
  | nowhere {settings : List Setting} {last : Option Switch} (cut : outputCut word = none)
      (others : ∀ setting ∈ settings, setting.switch ≠ .output) (other : last ≠ some .output) :
      Cut release word settings last
  | attached {kept : List String} {settings : List Setting} {value : String}
      (cut : outputCut word = some (kept, false)) (stand : StandFor release kept settings)
      (others : ∀ setting ∈ settings, setting.switch ≠ .output) :
      Cut release word (settings ++ [⟨.output, value⟩]) none
  | next {kept : List String} {settings : List Setting}
      (cut : outputCut word = some (kept, true)) (stand : StandFor release kept settings)
      (others : ∀ setting ∈ settings, setting.switch ≠ .output) :
      Cut release word settings (some .output)

/-- Arguments without the output options, and without the first one if that is the value of such an
option. Behind the mark there are no options. -/
def dropOutput : Bool → List String → List String
  | _, [] => []
  | true, _ :: rest => dropOutput false rest
  | false, word :: rest =>
    if word = "--" then word :: rest
    else (outputCut word).elim (word :: dropOutput false rest) fun (kept, next) =>
      kept ++ dropOutput next rest

/-- Arguments without the output options. -/
def withoutOutput (words : List String) : List String :=
  dropOutput false words

/-! ## Kinds -/

/-- The mark `--` is no argument of its own. -/
lemma ne_mark_of_kindOf {word : String} {kind : ArgumentKind} (told : kindOf word = .ok kind) :
    word ≠ "--" := by
  rintro rfl
  -- The mark begins every long spelling, so by itself it would be ambiguous.
  obtain ⟨error, refused⟩ : ∃ error, kindOf "--" = .error error := ⟨_, rfl⟩
  cases told.symm.trans refused

/-- What spells a switch is in the table. -/
lemma mem_table_of_ofSpelling {spelling : String} {switch : Switch}
    (spelled : Switch.ofSpelling? spelling = some switch) : (spelling, switch) ∈ Switch.table := by
  obtain ⟨before, behind, same, _⟩ := List.lookup_eq_some_iff.1 spelled
  rw [same]
  exact List.mem_append_right _ List.mem_cons_self

/-- What a word is read as is in the table. -/
lemma mem_table_of_readings {text : List Char} {spelling : String} {switch : Switch}
    {value : Option Attached} (mem : (spelling, switch, value) ∈ readings text) :
    (spelling, switch) ∈ Switch.table := by
  unfold readings at mem
  split at mem
  · obtain ⟨entry, entry_mem, same⟩ := List.mem_map.1 mem
    cases same
    exact (List.mem_filter.1 entry_mem).1
  · obtain ⟨entry, entry_mem, same⟩ := List.mem_map.1 mem
    cases same
    exact (List.mem_filter.1 entry_mem).1
  · cases mem

/-- An argument by itself is never a mark, and an option has one of its spellings. -/
lemma kindOf_cases {word : String} {kind : ArgumentKind} (told : kindOf word = .ok kind) :
    kind = .value ∨ kind = .unknown ∨ ∃ spelling switch attached,
      (spelling, switch) ∈ Switch.table ∧ kind = .option switch (isShort spelling) attached := by
  unfold kindOf at told
  dsimp only at told
  split at told
  · cases told
    exact .inl rfl
  · split at told
    · rename_i switch spelled
      cases told
      exact .inr (.inr ⟨_, switch, _, mem_table_of_ofSpelling spelled, rfl⟩)
    · rename_i switch _ spelled
      cases told
      exact .inr (.inr ⟨_, switch, _, mem_table_of_ofSpelling spelled, rfl⟩)
    · split at told
      · rename_i spelling switch value reads
        cases told
        have mem : (spelling, switch, value) ∈ readings word.toList := by
          rw [reads]
          exact List.mem_cons_self
        exact .inr (.inr ⟨spelling, switch, value, mem_table_of_readings mem, rfl⟩)
      · split at told
        · cases told
          exact .inl rfl
        · cases told
          exact .inr (.inl rfl)
      · cases told

/-- Arguments are told apart one by one. -/
lemma tellApart_cons {word : String} {kind : ArgumentKind} {rest : List String}
    {kinds : List (String × ArgumentKind)} (told : kindOf word = .ok kind)
    (others : tellApart rest = .ok kinds) : tellApart (word :: rest) = .ok ((word, kind) :: kinds) := by
  rw [tellApart, if_neg (ne_mark_of_kindOf told), told, others]
  rfl

/-- No word is told to be the mark. -/
lemma kindOf_ne_mark {word : String} : kindOf word ≠ .ok .mark := by
  intro told
  rcases kindOf_cases told with kind | kind | ⟨_, _, _, _, kind⟩
  · cases kind
  · cases kind
  · cases kind

/-- Only no words make no arguments. -/
lemma eq_nil_of_tellApart {words : List String} (told : tellApart words = .ok []) : words = [] := by
  cases words with
  | nil => rfl
  | cons word rest =>
    rw [tellApart] at told
    split at told
    · cases told
    · obtain ⟨kind, _, told⟩ := exists_of_bind_eq_ok told
      obtain ⟨kinds, _, told⟩ := exists_of_bind_eq_ok told
      cases told

/-- The first argument is the mark, with values behind it, or told on its own. -/
lemma tellApart_inv {words : List String} {word : String} {kind : ArgumentKind}
    {kinds : List (String × ArgumentKind)} (told : tellApart words = .ok ((word, kind) :: kinds)) :
    ∃ rest, words = word :: rest ∧
      (kind = .mark ∧ word = "--" ∧ kinds = rest.map (·, .value) ∨
        kindOf word = .ok kind ∧ tellApart rest = .ok kinds) := by
  cases words with
  | nil => cases told
  | cons first rest =>
    rw [tellApart] at told
    split at told
    · rename_i mark
      cases told
      exact ⟨rest, rfl, .inl ⟨rfl, mark, rfl⟩⟩
    · obtain ⟨kind', told', told⟩ := exists_of_bind_eq_ok told
      obtain ⟨kinds', others, told⟩ := exists_of_bind_eq_ok told
      cases told
      exact ⟨rest, rfl, .inr ⟨told', others⟩⟩

/-! ## Reading follows the rules -/

section
variable {release : Release}

/-- Extra arguments are never dropped. -/
lemma extra_of_take {arguments request : Arguments} {extra extra' : List String}
    {kinds : List (String × ArgumentKind)}
    (taken : arguments.take release extra kinds = .ok (request, extra')) : extra <+: extra' := by
  fun_induction Arguments.take release arguments extra kinds with
  | case1 arguments extra =>
    cases taken
    exact List.prefix_rfl
  | case2 arguments extra word rest ih => exact (List.prefix_append _ _).trans (ih taken)
  | case3 arguments extra word rest some_input ih => exact (List.prefix_append _ _).trans (ih taken)
  | case4 arguments extra word no_input mark rest ih => exact ih taken
  | case5 arguments extra word no_input rest no_mark ih => exact ih taken
  | case6 arguments extra mark value kind rest no_input ih => exact ih taken
  | case7 arguments extra mark rest no_value ih => exact (List.prefix_append _ _).trans (ih taken)
  | case8 => cases taken
  | case9 arguments extra word switch short attached rest settings more given ih =>
    obtain ⟨arguments', _, taken⟩ := exists_of_bind_eq_ok taken
    exact (List.prefix_append _ _).trans (ih arguments' taken)
  | case10 arguments extra word switch short attached settings last more given value rest ih =>
    obtain ⟨arguments', _, taken⟩ := exists_of_bind_eq_ok taken
    exact (List.prefix_append _ _).trans (ih arguments' taken)
  | case11 => cases taken

/-- If nothing is extra in the end, nothing was before. -/
lemma extra_eq_nil {arguments request : Arguments} {extra : List String}
    {kinds : List (String × ArgumentKind)}
    (taken : arguments.take release extra kinds = .ok (request, [])) : extra = [] :=
  List.prefix_nil.1 (extra_of_take taken)

/-- A word too many is never taken. -/
lemma not_take_extra {arguments request : Arguments} {extra : List String} {word : String}
    {kinds : List (String × ArgumentKind)} :
    arguments.take release (extra ++ [word]) kinds ≠ .ok (request, []) := by
  intro taken
  cases (List.append_eq_nil_iff.1 (extra_eq_nil taken)).2

/-- Values are taken behind the input only if there are none. -/
lemma take_values {arguments request : Arguments} {extra rest : List String}
    (some_input : arguments.input.isSome = true)
    (taken : arguments.take release extra (rest.map (·, .value)) = .ok (request, [])) :
    rest = [] ∧ request = arguments := by
  cases rest with
  | nil =>
    cases taken
    exact ⟨rfl, rfl⟩
  | cons word rest =>
    unfold Arguments.take at taken
    rw [List.map_cons] at taken
    dsimp only at taken
    rw [if_pos some_input] at taken
    exact absurd taken not_take_extra

/-- Arguments that are all taken ask for the request. -/
lemma asks_of_take {arguments request : Arguments} {extra words : List String}
    {kinds : List (String × ArgumentKind)} (told : tellApart words = .ok kinds)
    (taken : arguments.take release extra kinds = .ok (request, [])) :
    Asks release arguments words request := by
  -- Nothing is extra in the end, which excludes every case that adds something to `extra`.
  fun_induction Arguments.take release arguments extra kinds generalizing words with
  | case1 arguments extra =>
    cases taken
    obtain rfl := eq_nil_of_tellApart told
    exact .done
  | case2 arguments extra word rest ih => exact absurd taken not_take_extra
  | case3 arguments extra word rest some_input ih => exact absurd taken not_take_extra
  | case4 arguments extra word no_input mark rest ih =>
    obtain ⟨rest', rfl, ⟨⟨⟩, _⟩ | ⟨kind, others⟩⟩ := tellApart_inv told
    obtain ⟨rest'', rfl, ⟨_, rfl, rfl⟩ | ⟨no_kind, _⟩⟩ := tellApart_inv others
    · obtain ⟨rfl, rfl⟩ := take_values rfl taken
      exact .marked kind (Option.not_isSome_iff_eq_none.1 no_input)
    · exact absurd no_kind kindOf_ne_mark
  | case5 arguments extra word no_input rest no_mark ih =>
    obtain ⟨rest', rfl, ⟨⟨⟩, _⟩ | ⟨kind, others⟩⟩ := tellApart_inv told
    refine .input kind (Option.not_isSome_iff_eq_none.1 no_input) ?_ (ih others taken)
    intro head
    obtain ⟨more, rfl⟩ := List.head?_eq_some_iff.1 head
    cases others
    exact no_mark _ _ rfl
  | case6 arguments extra mark value kind rest no_input ih =>
    obtain ⟨rest', rfl, ⟨_, rfl, kinds⟩ | ⟨no_kind, _⟩⟩ := tellApart_inv told
    · cases rest' with
      | nil => cases kinds
      | cons value' rest' =>
        cases kinds
        obtain ⟨rfl, rfl⟩ := take_values rfl taken
        exact .behind no_input
    · exact absurd no_kind kindOf_ne_mark
  | case7 arguments extra mark rest no_value ih => exact absurd taken not_take_extra
  | case8 => cases taken
  | case9 arguments extra word switch short attached rest settings more given ih =>
    obtain ⟨arguments', applied, taken⟩ := exists_of_bind_eq_ok taken
    obtain rfl := (List.append_eq_nil_iff.1 (extra_eq_nil taken)).2
    obtain ⟨rest', rfl, ⟨⟨⟩, _⟩ | ⟨kind, others⟩⟩ := tellApart_inv told
    exact .flags kind given applied (ih arguments' others taken)
  | case10 arguments extra word switch short attached settings last more given value rest ih =>
    obtain ⟨arguments', applied, taken⟩ := exists_of_bind_eq_ok taken
    obtain rfl := (List.append_eq_nil_iff.1 (extra_eq_nil taken)).2
    obtain ⟨rest', rfl, ⟨⟨⟩, _⟩ | ⟨kind, others⟩⟩ := tellApart_inv told
    obtain ⟨rest'', rfl, ⟨⟨⟩, _⟩ | ⟨value_kind, others⟩⟩ := tellApart_inv others
    exact .valued kind given value_kind applied (ih arguments' others taken)
  | case11 => cases taken

/-- What the rules ask for is taken, and nothing is extra. -/
lemma Asks.exists_take {arguments request : Arguments} {words : List String}
    (asks : Asks release arguments words request) :
    ∃ kinds, tellApart words = .ok kinds ∧ arguments.take release [] kinds = .ok (request, []) := by
  induction asks with
  | done => exact ⟨[], rfl, rfl⟩
  | @input arguments request word rest kind first no_mark more ih =>
    obtain ⟨kinds, told, taken⟩ := ih
    refine ⟨_, tellApart_cons kind told, ?_⟩
    rw [Arguments.take, first]
    · exact taken
    · rintro mark kinds rfl
      obtain ⟨rest, rfl, ⟨_, rfl, _⟩ | ⟨no_kind, _⟩⟩ := tellApart_inv told
      · exact no_mark rfl
      · exact kindOf_ne_mark no_kind
  | @marked arguments word kind first =>
    refine ⟨_, tellApart_cons kind rfl, ?_⟩
    rw [Arguments.take, first]
    rfl
  | @behind arguments word first =>
    refine ⟨_, rfl, ?_⟩
    rw [List.map_cons, Arguments.take]
    · rfl
    · exact first
  | flags kind given applied more ih =>
    obtain ⟨kinds, told, taken⟩ := ih
    refine ⟨_, tellApart_cons kind told, ?_⟩
    rw [Arguments.take, given]
    dsimp only
    rw [applied]
    exact taken
  | valued kind given value_kind applied more ih =>
    obtain ⟨kinds, told, taken⟩ := ih
    refine ⟨_, tellApart_cons kind (tellApart_cons value_kind told), ?_⟩
    rw [Arguments.take, given]
    dsimp only
    rw [applied]
    exact taken

end

/-- Changing the error changes no value. -/
lemma mapError_eq_ok {ε ε' α : Type} {first : Except ε α} {change : ε → ε'} {value : α} :
    first.mapError change = .ok value ↔ first = .ok value := by
  cases first with
  | error fault => exact ⟨nofun, nofun⟩
  | ok value' =>
    refine ⟨fun same => ?_, fun same => ?_⟩
    · rw [Except.ok.inj same]
    · rw [Except.ok.inj same]
      rfl

/-- Arguments are read as the rules say; an input has to be among them. -/
lemma read_eq_ok_iff {release : Release} {words : List String} {request : Arguments} :
    Arguments.read release words = .ok request ↔
      Asks release Arguments.none words request ∧ request.input.isSome = true := by
  constructor
  · intro read
    obtain ⟨kinds, told, read⟩ := exists_of_bind_eq_ok read
    obtain ⟨⟨result, extra⟩, taken, read⟩ := exists_of_bind_eq_ok read
    dsimp only at read
    split at read
    · cases read
    · rename_i some_input
      split at read
      · cases read
      · rename_i no_extra
        cases read
        have nothing : extra = [] := by simpa using no_extra
        rw [nothing] at taken
        refine ⟨asks_of_take (mapError_eq_ok.1 told) taken, ?_⟩
        exact Option.isNone_eq_false_iff.1 (Bool.eq_false_iff.2 some_input)
  · rintro ⟨asks, some_input⟩
    obtain ⟨kinds, told, taken⟩ := asks.exists_take
    rw [Arguments.read, mapError_eq_ok.2 told]
    dsimp only [bind, Except.bind]
    rw [taken]
    dsimp only
    rw [Option.isNone_eq_false_iff.2 some_input]
    rfl

/-! ## Settings -/

namespace Arguments
variable {release : Release} {arguments arguments' : Arguments} {setting : Setting}
  {settings : List Setting}

/-- A setting other than the output does the same where no output is given. -/
lemma apply_printed (other : setting.switch ≠ .output)
    (applied : arguments.apply release setting = .ok arguments') :
    arguments.printed.apply release setting = .ok arguments'.printed := by
  unfold apply at applied ⊢
  cases switch : setting.switch with
  | output => exact absurd switch other
  | help =>
    rw [switch] at applied
    cases applied
  | offset =>
    rw [switch] at applied
    dsimp only at applied ⊢
    split at applied
    · cases applied
      rfl
    · cases applied
  | config | check | index | debug | verbose =>
    rw [switch] at applied
    cases applied
    rfl

/-- No setting changes the input. -/
lemma input_of_apply (applied : arguments.apply release setting = .ok arguments') :
    arguments'.input = arguments.input := by
  unfold apply at applied
  cases switch : setting.switch with
  | help =>
    rw [switch] at applied
    cases applied
  | offset =>
    rw [switch] at applied
    dsimp only at applied
    split at applied
    · cases applied
      rfl
    · cases applied
  | output | config | check | index | debug | verbose =>
    rw [switch] at applied
    cases applied
    rfl

/-- No settings change the input. -/
lemma input_of_applyAll (applied : arguments.applyAll release settings = .ok arguments') :
    arguments'.input = arguments.input := by
  induction settings generalizing arguments with
  | nil =>
    cases applied
    rfl
  | cons setting settings ih =>
    obtain ⟨next, applied_first, applied⟩ := exists_of_bind_eq_ok applied
    exact (ih applied).trans (input_of_apply applied_first)

/-- No setting but that of the output hangs on the output. -/
lemma applyAll_printed (others : ∀ setting ∈ settings, setting.switch ≠ .output)
    (applied : arguments.applyAll release settings = .ok arguments') :
    arguments.printed.applyAll release settings = .ok arguments'.printed := by
  induction settings generalizing arguments with
  | nil =>
    cases applied
    rfl
  | cons setting settings ih =>
    obtain ⟨first, rest⟩ := List.forall_mem_cons.1 others
    obtain ⟨next, applied_first, applied⟩ := exists_of_bind_eq_ok applied
    show (arguments.printed.apply release setting >>= _) = _
    rw [apply_printed first applied_first]
    exact ih rest applied

/-- What is printed is the same whatever output is set in the end. -/
lemma applyAll_output {value : String} (others : ∀ setting ∈ settings, setting.switch ≠ .output)
    (applied : arguments.applyAll release (settings ++ [⟨.output, value⟩]) = .ok arguments') :
    arguments.printed.applyAll release settings = .ok arguments'.printed := by
  rw [applyAll, List.foldlM_append] at applied
  obtain ⟨next, applied_first, last⟩ := exists_of_bind_eq_ok applied
  cases last
  have printed := applyAll_printed others applied_first
  exact printed

/-- Help is no request. -/
lemma ne_help_of_applyAll (applied : arguments.applyAll release settings = .ok arguments') :
    ∀ setting ∈ settings, setting.switch ≠ .help := by
  induction settings generalizing arguments with
  | nil => exact nofun
  | cons setting settings ih =>
    obtain ⟨next, applied_first, applied⟩ := exists_of_bind_eq_ok applied
    refine List.forall_mem_cons.2 ⟨fun help => ?_, ih applied⟩
    rw [apply, help] at applied_first
    cases applied_first

end Arguments

/-! ## The output option -/

/-- A short option has one letter, and there are three. -/
lemma short_cases {spelling : String} {switch : Switch} (mem : (spelling, switch) ∈ Switch.table)
    (short : isShort spelling = true) :
    spelling = "-h" ∧ switch = .help ∨ spelling = "-o" ∧ switch = .output ∨
      spelling = "-v" ∧ switch = .verbose := by
  have every : Switch.table.all (fun entry => !isShort entry.1 ||
      [("-h", Switch.help), ("-o", .output), ("-v", .verbose)].contains entry) = true := by
    decide
  have listed := List.all_eq_true.1 every _ mem
  rw [short] at listed
  simpa using listed

/-- The letters that are options. -/
lemma letter_cases {c : Char} {switch : Switch}
    (spelled : Switch.ofSpelling? (String.ofList ['-', c]) = some switch) :
    c = 'h' ∧ switch = .help ∨ c = 'o' ∧ switch = .output ∨ c = 'v' ∧ switch = .verbose := by
  have letter {d : Char} (same : String.ofList ['-', c] = String.ofList ['-', d]) : c = d := by
    cases String.ofList_inj.1 same
    rfl
  have short : isShort (String.ofList ['-', c]) = true := by
    rw [isShort, String.length_ofList]
    rfl
  rcases short_cases (mem_table_of_ofSpelling spelled) short with
    ⟨same, switch⟩ | ⟨same, switch⟩ | ⟨same, switch⟩
  · exact .inl ⟨letter same, switch⟩
  · exact .inr (.inl ⟨letter same, switch⟩)
  · exact .inr (.inr ⟨letter same, switch⟩)

section
variable {release : Release}

/-- Letters that are no options are no request. -/
lemma strayLetters_ne {switch : Switch} {letters : List Char} {settings : List Setting}
    {last : Option Switch} : release.strayLetters switch letters ≠ .ok ⟨settings, last, []⟩ := by
  intro given
  cases release with
  | early => cases given
  | current =>
    rw [Release.strayLetters] at given
    split at given
    · cases given
    · cases given

/-- What follows a letter that takes no value begins with another option. -/
lemma sharedDash_cons {switch : Switch} (plain : switch.takesValue = false) {c : Char}
    {rest : List Char} {settings : List Setting} {last : Option Switch}
    (given : release.sharedDash switch (c :: rest) = .ok ⟨settings, last, []⟩) :
    ∃ next more, Switch.ofSpelling? (String.ofList ['-', c]) = some next ∧
      release.sharedDash next rest = .ok ⟨more, last, []⟩ ∧ settings = ⟨switch, ""⟩ :: more := by
  rw [Release.sharedDash, plain, if_neg Bool.false_ne_true] at given
  split at given
  · cases given
  · cases spelled : Switch.ofSpelling? (String.ofList ['-', c]) with
    | none =>
      rw [spelled] at given
      exact absurd given strayLetters_ne
    | some next =>
      rw [spelled] at given
      obtain ⟨⟨more, last', extra⟩, given_rest, given⟩ := exists_of_bind_eq_ok given
      cases given
      exact ⟨next, more, rfl, given_rest, rfl⟩

/-- The letter `v` goes before other options. -/
lemma sharedDash_verbose {rest : List Char} {settings : List Setting} {last : Option Switch}
    (given : release.sharedDash .verbose rest = .ok ⟨settings, last, []⟩) :
    release.sharedDash .verbose ('v' :: rest) = .ok ⟨⟨.verbose, ""⟩ :: settings, last, []⟩ := by
  have spelled : Switch.ofSpelling? (String.ofList ['-', 'v']) = some .verbose := rfl
  have no_sign : ¬ (decide (release = .current) && decide ('v' = '=')) = true := by simp
  rw [Release.sharedDash, if_neg (by decide), if_neg no_sign, spelled]
  dsimp only
  rw [given]
  rfl

/-- Behind a shared dash, the first switch is set. -/
lemma mem_sharedDash {switch : Switch} (plain : switch.takesValue = false) {text : List Char}
    {settings : List Setting} {last : Option Switch}
    (given : release.sharedDash switch text = .ok ⟨settings, last, []⟩) :
    ⟨switch, ""⟩ ∈ settings := by
  cases text with
  | nil =>
    rw [Release.sharedDash, plain] at given
    cases given
    exact List.mem_cons_self
  | cons c rest =>
    obtain ⟨_, _, _, _, rfl⟩ := sharedDash_cons plain given
    exact List.mem_cons_self

/-- The options that share a dash with the first letter `v`: more of these, and then at most an output
option. -/
lemma sharedDash_cases {text : List Char} {settings : List Setting} {last : Option Switch}
    (given : release.sharedDash .verbose text = .ok ⟨settings, last, []⟩)
    (no_help : ∀ setting ∈ settings, setting.switch ≠ .help) :
    ('o' ∉ text ∧ last = none ∧ ∀ setting ∈ settings, setting.switch ≠ .output) ∨
    ∃ before value others, text = before ++ 'o' :: value ∧ (∀ c ∈ before, c = 'v') ∧
      release.sharedDash .verbose before = .ok ⟨others, none, []⟩ ∧
      (∀ setting ∈ others, setting.switch ≠ .output) ∧
      (value = [] ∧ last = some .output ∧ settings = others ∨
        value ≠ [] ∧ last = none ∧ ∃ name, settings = others ++ [⟨.output, name⟩]) := by
  induction text generalizing settings with
  | nil =>
    cases given
    exact .inl ⟨nofun, rfl, by simp⟩
  | cons c rest ih =>
    obtain ⟨next, more, spelled, given_rest, rfl⟩ := sharedDash_cons rfl given
    obtain ⟨_, no_help⟩ := List.forall_mem_cons.1 no_help
    -- Help is no request, an output option takes all that follows, and another `v` goes on.
    rcases letter_cases spelled with ⟨rfl, rfl⟩ | ⟨rfl, rfl⟩ | ⟨rfl, rfl⟩
    · exact absurd rfl (no_help _ (mem_sharedDash rfl given_rest))
    · refine .inr ⟨[], rest, [⟨.verbose, ""⟩], rfl, nofun, rfl, by simp, ?_⟩
      cases rest with
      | nil =>
        cases given_rest
        exact .inl ⟨rfl, rfl, rfl⟩
      | cons d rest =>
        cases given_rest
        exact .inr ⟨List.cons_ne_nil _ _, rfl, _, rfl⟩
    · rcases ih given_rest no_help with
        ⟨no_output, open_end, others⟩ | ⟨before, value, others, split, letters, given, rest_ok, ends⟩
      · refine .inl ⟨?_, open_end, List.forall_mem_cons.2 ⟨nofun, others⟩⟩
        rw [List.mem_cons, not_or]
        exact ⟨by decide, no_output⟩
      · refine .inr ⟨'v' :: before, value, ⟨.verbose, ""⟩ :: others, congrArg _ split,
          List.forall_mem_cons.2 ⟨rfl, letters⟩, sharedDash_verbose given,
          List.forall_mem_cons.2 ⟨nofun, rest_ok⟩, ?_⟩
        rcases ends with ⟨nothing, open_end, same⟩ | ⟨something, open_end, name, same⟩
        · exact .inl ⟨nothing, open_end, congrArg _ same⟩
        · exact .inr ⟨something, open_end, name, congrArg _ same⟩

end

/-- No spelling begins with a dash and two letters `v`. -/
lemma ofSpelling_letters (more : List Char) :
    Switch.ofSpelling? (String.ofList ('-' :: 'v' :: 'v' :: more)) = none := by
  have every : Switch.table.all (fun entry => entry.1.toList.take 3 != ['-', 'v', 'v']) = true := by
    decide
  refine List.lookup_eq_none_iff.2 fun entry mem => bne_iff_ne.2 fun same => ?_
  have other := List.all_eq_true.1 every entry mem
  rw [← same, String.toList_ofList] at other
  cases other

/-- Without an equals sign there is nothing to split. -/
lemma splitEquals_of_not_mem {text : List Char} (no_sign : '=' ∉ text) :
    splitEquals text = (text, none) := by
  have nothing : text.dropWhile (· != '=') = [] := by
    rw [List.dropWhile_eq_nil_iff]
    intro c mem
    exact bne_iff_ne.2 fun same => no_sign (same ▸ mem)
  rw [splitEquals, nothing]

/-- The kind of an argument with the letter `v` only. -/
lemma exists_kind_of_letters (release : Release) {letters : List Char} (same : ∀ c ∈ letters, c = 'v') :
    ∃ attached, kindOf (String.ofList ('-' :: 'v' :: letters)) = .ok (.option .verbose true attached) ∧
      release.cluster .verbose true attached = release.sharedDash .verbose letters := by
  cases letters with
  | nil => exact ⟨none, rfl, rfl⟩
  | cons c more =>
    obtain ⟨rfl, others⟩ := List.forall_mem_cons.1 same
    refine ⟨some ⟨false, String.ofList ('v' :: more)⟩, ?_, ?_⟩
    · have no_sign : '=' ∉ '-' :: 'v' :: 'v' :: more := by
        simp only [List.mem_cons, not_or]
        exact ⟨by decide, by decide, by decide, fun mem => absurd (others _ mem) (by decide)⟩
      have dashed : ¬ (decide (('-' :: 'v' :: 'v' :: more).head? ≠ some '-') ||
          decide (('-' :: 'v' :: 'v' :: more).length = 1)) = true := by
        simp
      unfold kindOf
      dsimp only
      rw [String.toList_ofList, if_neg dashed, splitEquals_of_not_mem no_sign]
      dsimp only
      rw [ofSpelling_letters]
      rfl
    · rw [Release.cluster, if_neg (by decide), Release.shares, String.toList_ofList]
      simp

section
variable {release : Release} {word : String} {short : Bool} {attached : Option Attached}
  {settings : List Setting} {last : Option Switch}

/-- A word that begins with the output is cut. -/
lemma cut_of_output (kind : kindOf word = .ok (.option .output short attached))
    (given : release.cluster .output short attached = .ok ⟨settings, last, []⟩) :
    Cut release word settings last := by
  have nothing : StandFor release [] [] := by
    intro arguments arguments' request rest applied asks
    cases applied
    exact asks
  have cut : outputCut word = some ([], attached.isNone) := by rw [outputCut, kind]
  cases attached with
  | none =>
    cases given
    exact .next cut nothing nofun
  | some attached =>
    cases given
    exact .attached cut nothing nofun

section
variable {attached : Attached} (kind : kindOf word = .ok (.option .verbose true (some attached)))
include kind

/-- Without its letter behind `-v`, the output has nothing to cut. -/
lemma outputCut_without (no_output : 'o' ∉ attached.text.toList) : outputCut word = none := by
  have nothing : attached.text.toList.dropWhile (· != 'o') = [] := by
    rw [List.dropWhile_eq_nil_iff]
    exact fun c mem => bne_iff_ne.2 fun same => no_output (same ▸ mem)
  rw [outputCut, kind]
  dsimp only
  rw [nothing]

/-- Behind `-v`, the output is cut off from its letter on. -/
lemma outputCut_shared {before value : List Char}
    (split : attached.text.toList = before ++ 'o' :: value) (letters : ∀ c ∈ before, c = 'v') :
    outputCut word = some ([String.ofList ('-' :: 'v' :: before)], value.isEmpty) := by
  have before_output : ∀ c ∈ before, (c != 'o') = true := by
    intro c mem
    rw [letters c mem]
    rfl
  rw [outputCut, kind]
  dsimp only
  rw [split, List.dropWhile_append_of_pos before_output,
    List.takeWhile_append_of_pos before_output, List.takeWhile_cons_of_neg (by decide),
    List.dropWhile_cons_of_neg (by decide), List.append_nil]

end

/-- Options that share a dash stay without the output option. -/
lemma cut_of_verbose (kind : kindOf word = .ok (.option .verbose short attached))
    (given : release.cluster .verbose short attached = .ok ⟨settings, last, []⟩)
    (no_help : ∀ setting ∈ settings, setting.switch ≠ .help) : Cut release word settings last := by
  cases attached with
  | none =>
    cases given
    refine .nowhere ?_ (by simp) nofun
    rw [outputCut, kind]
    cases short with
    | true => rfl
    | false => rfl
  | some attached =>
    rw [Release.cluster, if_neg (by decide)] at given
    split at given
    · rename_i shares
      obtain ⟨rfl, _⟩ := Bool.and_eq_true_iff.1 shares
      rcases sharedDash_cases given no_help with
        ⟨no_output, rfl, others⟩ | ⟨before, value, settings', split, letters, shared, others, ends⟩
      · exact .nowhere (outputCut_without kind no_output) others nofun
      · have cut := outputCut_shared kind split letters
        obtain ⟨attached, kind', same⟩ := exists_kind_of_letters release letters
        have stand : StandFor release [String.ofList ('-' :: 'v' :: before)] settings' :=
          fun applied asks => .flags kind' (same.trans shared) applied asks
        rcases ends with ⟨rfl, rfl, rfl⟩ | ⟨something, rfl, name, rfl⟩
        · exact .next cut stand others
        · rw [List.isEmpty_eq_false_iff.2 something] at cut
          exact .attached cut stand others
    · cases given

variable {switch : Switch} (kind : kindOf word = .ok (.option switch short attached))
  (given : release.cluster switch short attached = .ok ⟨settings, last, []⟩)
  (no_help : ∀ setting ∈ settings, setting.switch ≠ .help)
include kind given no_help

/-- An option that can share no dash has settings of its own only. -/
lemma cluster_other (other : switch ≠ .output) (quiet : switch ≠ .verbose) :
    (∀ setting ∈ settings, setting.switch = switch) ∧ (last = none ∨ last = some switch) := by
  cases attached with
  | none =>
    rw [Release.cluster, Release.sharedDash] at given
    cases takes : switch.takesValue with
    | true =>
      rw [takes] at given
      cases given
      exact ⟨nofun, .inr rfl⟩
    | false =>
      rw [takes] at given
      cases given
      exact ⟨by simp, .inl rfl⟩
  | some attached =>
    rw [Release.cluster] at given
    split at given
    · cases given
      exact ⟨by simp, .inl rfl⟩
    · split at given
      · rename_i shares
        obtain ⟨is_short, _⟩ := Bool.and_eq_true_iff.1 shares
        rcases kindOf_cases kind with no_kind | no_kind | ⟨spelling, switch', attached, mem, same⟩
        · cases no_kind
        · cases no_kind
        · cases same
          rcases short_cases mem is_short with ⟨_, rfl⟩ | ⟨_, rfl⟩ | ⟨_, rfl⟩
          · exact absurd rfl (no_help _ (mem_sharedDash rfl given))
          · exact absurd rfl other
          · exact absurd rfl quiet
      · cases given

/-- Every option is cut as its settings call for. -/
lemma cut_of_option : Cut release word settings last := by
  by_cases output : switch = .output
  · subst output
    exact cut_of_output kind given
  · by_cases verbose : switch = .verbose
    · subst verbose
      exact cut_of_verbose kind given no_help
    · obtain ⟨own, ends⟩ := cluster_other kind given no_help output verbose
      refine .nowhere ?_ (fun setting mem same => output ((own setting mem).symm.trans same)) ?_
      · rw [outputCut, kind]
        cases switch with
        | output => exact absurd rfl output
        | verbose => exact absurd rfl verbose
        | help | offset | config | check | index | debug => rfl
      · rcases ends with rfl | rfl
        · exact nofun
        · exact fun same => output (Option.some.inj same)

end

/-- A value has no output to cut. -/
lemma outputCut_of_value {word : String} (kind : kindOf word = .ok .value) : outputCut word = none := by
  rw [outputCut, kind]

/-- A word without the output is kept. -/
lemma withoutOutput_none {word : String} (no_mark : word ≠ "--") (cut : outputCut word = none)
    (rest : List String) : withoutOutput (word :: rest) = word :: withoutOutput rest := by
  rw [withoutOutput, dropOutput, if_neg no_mark, cut]
  rfl

/-- A word with the output is cut, and the next one is dropped if it is the value. -/
lemma withoutOutput_some {word : String} (no_mark : word ≠ "--") {kept : List String} {next : Bool}
    (cut : outputCut word = some (kept, next)) (rest : List String) :
    withoutOutput (word :: rest) = kept ++ dropOutput next rest := by
  rw [withoutOutput, dropOutput, if_neg no_mark, cut]
  rfl

/-- Behind the input there is no mark. -/
lemma Asks.no_mark {release : Release} {arguments request : Arguments} {words : List String}
    (asks : Asks release arguments words request) (some_input : arguments.input.isSome = true) :
    "--" ∉ words := by
  induction asks with
  | done => exact nofun
  | input kind first | marked kind first | behind first =>
    rw [first] at some_input
    cases some_input
  | flags kind given applied more ih =>
    rw [List.mem_cons, not_or]
    refine ⟨(ne_mark_of_kindOf kind).symm, ih ?_⟩
    rw [Arguments.input_of_applyAll applied]
    exact some_input
  | valued kind given value_kind applied more ih =>
    rw [List.mem_cons, List.mem_cons, not_or, not_or]
    refine ⟨(ne_mark_of_kindOf kind).symm, (ne_mark_of_kindOf value_kind).symm, ih ?_⟩
    rw [Arguments.input_of_applyAll applied]
    exact some_input

/-- By the rules the output option can be left out. -/
lemma Asks.printed {release : Release} {arguments request : Arguments} {words : List String}
    (asks : Asks release arguments words request) :
    Asks release arguments.printed (withoutOutput words) request.printed := by
  induction asks with
  | done => exact .done
  | @input arguments request word rest kind first no_mark more ih =>
    rw [withoutOutput_none (ne_mark_of_kindOf kind) (outputCut_of_value kind)]
    -- What remains begins with no mark, since it asks for something behind the input.
    refine .input kind first (fun head => ?_) ih
    exact ih.no_mark rfl (List.mem_of_head? head)
  | marked kind first =>
    rw [withoutOutput_none (ne_mark_of_kindOf kind) (outputCut_of_value kind)]
    exact .marked kind first
  | behind first => exact .behind first
  | flags kind given applied more ih =>
    have no_mark := ne_mark_of_kindOf kind
    cases cut_of_option kind given (Arguments.ne_help_of_applyAll applied) with
    | nowhere cut others other =>
      rw [withoutOutput_none no_mark cut]
      exact .flags kind given (Arguments.applyAll_printed others applied) ih
    | attached cut stand others =>
      rw [withoutOutput_some no_mark cut]
      exact stand (Arguments.applyAll_output others applied) ih
  | @valued _ _ _ _ value _ _ last _ _ _ kind given value_kind applied more ih =>
    have no_mark := ne_mark_of_kindOf kind
    have no_help := (List.forall_mem_append.1 (Arguments.ne_help_of_applyAll applied)).1
    cases cut_of_option kind given no_help with
    | nowhere cut others other =>
      have own : (⟨last, value⟩ : Setting).switch ≠ .output := fun same => other (congrArg some same)
      have all_others := List.forall_mem_append.2 ⟨others, List.forall_mem_singleton.2 own⟩
      rw [withoutOutput_none no_mark cut,
        withoutOutput_none (ne_mark_of_kindOf value_kind) (outputCut_of_value value_kind)]
      exact .valued kind given value_kind (Arguments.applyAll_printed all_others applied) ih
    | next cut stand others =>
      rw [withoutOutput_some no_mark cut]
      exact stand (Arguments.applyAll_output others applied) ih

/-- Without the output option the same is asked for, but printed. -/
lemma read_withoutOutput {release : Release} {words : List String} {request : Arguments}
    (read : Arguments.read release words = .ok request) :
    Arguments.read release (withoutOutput words) = .ok request.printed := by
  obtain ⟨asks, some_input⟩ := read_eq_ok_iff.1 read
  exact read_eq_ok_iff.2 ⟨asks.printed, some_input⟩

end KixScript

import KixScript.Proofs.Requests

/-!
# Deliveries

A file that is written is the only one that changes, and the way to it stays (`follow_set`), so it can
be read back (`read_of_write`). A run writes at most once, and last (`run_cases`, `deliver_cases`): what
it writes comes from the files as they were, be the output one of them or not. The same run without the
output prints the same text (`run_changes_output`).
-/

namespace KixScript

/-- The place of the output that some arguments ask for. -/
def outputPlace? (release : Release) (store : Store) (words : List String) : Option Location := do
  let request ← (Arguments.read release words).toOption
  let output ← request.output
  (store.locate (Path.ofString output)).toOption

/-! ## Files that are written -/

/-- Other entries are found as before. -/
lemma lookup_filter_ne {entries : List (Location × Entry)} {place target : Location}
    (other : place ≠ target) : (entries.filter (·.1 != target)).lookup place = entries.lookup place := by
  induction entries with
  | nil => rfl
  | cons entry entries ih =>
    rw [List.filter_cons, List.lookup_cons]
    split
    · rw [List.lookup_cons, ih]
    · rename_i dropped
      have same : entry.1 = target := by simpa using dropped
      rw [ih, same, beq_eq_false_iff_ne.2 other]

namespace Store
variable {store : Store} {target : Location}

/-- Other places keep their entries. -/
lemma entry_set_of_ne {place : Location} (other : place ≠ target) (entry : Entry) :
    Store.entry? (store.set target entry) place = store.entry? place := by
  unfold entry? set
  rw [List.lookup_cons, beq_eq_false_iff_ne.2 other]
  dsimp only
  rw [lookup_filter_ne other]

section
variable (free : store.entry? target ≠ some .directory) (content : ByteArray)
include free

/-- The file is where it was put. -/
lemma entry_set_self :
    Store.entry? (store.set target (.file content)) target = some (.file content) := by
  have some_name : ¬ target.names.isEmpty = true := by
    intro no_name
    rw [Store.entry?, if_pos no_name] at free
    exact free rfl
  rw [Store.entry?, if_neg some_name, set, List.lookup_cons, beq_self_eq_true]

/-- The way to a place leads through directories, and none of them is written. -/
lemma follow_set {place found : Location} {names : List String}
    (followed : store.follow place names = .ok found) :
    (store.set target (.file content)).follow place names = .ok found := by
  induction names generalizing place with
  | nil => exact followed
  | cons name rest ih =>
    rw [follow] at followed ⊢
    split at followed
    · rename_i directory
      have other : place ≠ target := by
        rintro rfl
        exact free directory
      rw [entry_set_of_ne other, directory]
      dsimp only
      split at followed
      · cases followed
      · rename_i short
        rw [if_neg short]
        exact ih followed
    · cases followed
    · cases followed

/-- Paths lead where they did. -/
lemma locate_set {path : Path} {found : Location} (located : store.locate path = .ok found) :
    (store.set target (.file content)).locate path = .ok found := by
  unfold locate at located ⊢
  split at located
  · cases located
  · rename_i no_zero
    split at located
    · cases located
    · rename_i short
      rw [if_neg no_zero, if_neg short]
      exact follow_set free content located

end

/-- What is written goes to one place that is no directory. -/
lemma exists_place_of_write {store' : Store} {path : Path} {content : ByteArray}
    (written : store.write path content = .ok store') : ∃ place, store.locate path = .ok place ∧
      store.entry? place ≠ some .directory ∧ store' = store.set place (.file content) := by
  obtain ⟨place, located, _⟩ := exists_of_bind_eq_ok written
  rw [write_of_located located] at written
  split at written
  · cases written
  · rename_i free
    exact ⟨place, located, free, (Except.ok.inj written).symm⟩

/-- What is written can be read back. -/
lemma read_of_write {store' : Store} {path : Path} {content : ByteArray}
    (written : store.write path content = .ok store') : store'.read path = .ok content := by
  obtain ⟨place, located, free, rfl⟩ := exists_place_of_write written
  rw [read, locate_set free content located]
  dsimp only [bind, Except.bind]
  rw [entry_set_self free content]

end Store

/-! ## Runs -/

/-- An outcome that leaves the files as they were, and whose code is neither 0 nor 1. -/
def Outcome.Fails (outcome : Outcome) (store : Store) : Prop :=
  outcome.store = store ∧ ∀ code < 2, outcome.ending ≠ .exit code

/-- The options of a run that prints. -/
def Options.printed (options : Options) : Options :=
  { options with output := none }

section
variable {platform : Platform} {store : Store} {words : List String} {request : Arguments}
  {options : Options}

/-- The configuration file is checked, and then the offset that is asked for. -/
lemma resolve_eq_ok_iff : Options.resolve platform store request = .ok options ↔
    ∃ config configured offset,
      loadConfig platform store (configPath request (Path.ofString (request.input.getD "")))
        = .ok config ∧
      Options.offsetFrom platform (configuredOffset? config) defaultIndentOffset = .ok configured ∧
      Options.offsetFrom platform request.offset configured = .ok offset ∧
      options = ⟨Path.ofString (request.input.getD ""), request.output.map Path.ofString, offset,
        request.check, request.index, request.debug⟩ := by
  constructor
  · intro resolves
    obtain ⟨config, loads, resolves⟩ := exists_of_bind_eq_ok resolves
    obtain ⟨configured, checks, resolves⟩ := exists_of_bind_eq_ok resolves
    obtain ⟨offset, checks', resolves⟩ := exists_of_bind_eq_ok resolves
    exact ⟨config, configured, offset, loads, checks, checks', (Except.ok.inj resolves).symm⟩
  · rintro ⟨config, configured, offset, loads, checks, checks', rfl⟩
    rw [Options.resolve, loads]
    dsimp only [bind, Except.bind]
    rw [checks]
    dsimp only
    rw [checks']
    rfl

/-- The output is the path that the request names. -/
lemma output_of_resolve (resolves : Options.resolve platform store request = .ok options) :
    options.output = request.output.map Path.ofString := by
  obtain ⟨config, configured, offset, _, _, _, rfl⟩ := resolve_eq_ok_iff.1 resolves
  rfl

/-- No other option hangs on the output. -/
lemma resolve_printed (resolves : Options.resolve platform store request = .ok options) :
    Options.resolve platform store request.printed = .ok options.printed := by
  obtain ⟨config, configured, offset, loads, checks, checks', rfl⟩ := resolve_eq_ok_iff.1 resolves
  exact resolve_eq_ok_iff.2 ⟨config, configured, offset, loads, checks, checks', rfl⟩

/-- What a script comes to has the code 0 or 1. -/
lemma code_of_process {verbose : Bool} {text : List Char} {result : Result}
    (done : (process options verbose text).result = .ok result) : result.code < 2 := by
  unfold process at done
  dsimp only at done
  split at done
  · obtain rfl := Except.ok.inj done
    dsimp only
    split
    · exact Nat.zero_lt_two
    · exact Nat.one_lt_two
  · split at done
    · obtain rfl := Except.ok.inj done
      exact Nat.zero_lt_two
    · split at done
      · cases done
      · obtain rfl := Except.ok.inj done
        exact Nat.zero_lt_two

/-- A run that comes to a text ends with what it delivers. -/
lemma run_eq {content : ByteArray} {text : List Char}
    (read : Arguments.read platform.release words = .ok request)
    (resolves : Options.resolve platform store request = .ok options)
    (reads : store.read options.input = .ok content) (decodes : Utf8.decode content = .ok text) :
    run platform store words = deliver store options.output (process options request.verbose text) := by
  rw [run, read]
  dsimp only
  rw [resolves]
  dsimp only
  rw [runWith, reads]
  dsimp only
  rw [decodes]

/-- A failure with a message leaves the store as it is. -/
lemma fails_failed (store : Store) (message : String) : (Outcome.failed store message).Fails store := by
  refine ⟨rfl, fun code bound same => ?_⟩
  cases same
  exact absurd bound (Nat.lt_irrefl 2)

/-- A run comes to a text, or it fails. -/
lemma run_cases (platform : Platform) (store : Store) (words : List String) :
    (run platform store words).Fails store ∨
    ∃ request options content text, Arguments.read platform.release words = .ok request ∧
      Options.resolve platform store request = .ok options ∧ store.read options.input = .ok content ∧
      Utf8.decode content = .ok text := by
  unfold run
  cases read : Arguments.read platform.release words with
  | error exit =>
    cases exit with
    | help => exact .inl ⟨rfl, nofun⟩
    | refused error => exact .inl ⟨rfl, nofun⟩
  | ok request =>
    dsimp only
    cases resolves : Options.resolve platform store request with
    | error error =>
      cases error with
      | unreadable fault => exact .inl ⟨rfl, nofun⟩
      | offset error => exact .inl (fails_failed store _)
      | malformed path message => exact .inl (fails_failed store _)
    | ok options =>
      dsimp only
      rw [runWith]
      cases reads : store.read options.input with
      | error fault =>
        cases fault with
        | zeroCharacter => exact .inl ⟨rfl, nofun⟩
        | missing | notADirectory | isADirectory | tooLong => exact .inl (fails_failed store _)
      | ok content =>
        dsimp only
        cases decodes : Utf8.decode content with
        | error fault => exact .inl (fails_failed store _)
        | ok text => exact .inr ⟨request, options, content, text, rfl, resolves, reads, decodes⟩

end

/-- What is delivered is printed, or written to the output; otherwise nothing changes. -/
lemma deliver_cases (store : Store) (output : Option Path) (product : Product) :
    (deliver store output product).Fails store ∨
    ∃ result, product.result = .ok result ∧
      (output = none ∧
        deliver store output product = ⟨.exit result.code, result.text, product.log, store⟩ ∨
      ∃ path store', output = some path ∧ store.write path result.text.toUTF8 = .ok store' ∧
        deliver store output product = ⟨.exit result.code, "", product.log, store'⟩) := by
  unfold deliver
  cases product.result with
  | error fault => exact .inl ⟨rfl, nofun⟩
  | ok result =>
    cases output with
    | none => exact .inr ⟨result, rfl, .inl ⟨rfl, rfl⟩⟩
    | some path =>
      dsimp only
      cases written : store.write path result.text.toUTF8 with
      | error fault => exact .inl ⟨rfl, nofun⟩
      | ok store' => exact .inr ⟨result, rfl, .inr ⟨path, store', rfl, written, rfl⟩⟩

/-- What a run leaves behind: it fails, or it prints, or it writes to the output that is asked for. -/
lemma run_outcomes (platform : Platform) (store : Store) (words : List String) :
    (run platform store words).Fails store ∨
    ∃ (request : Arguments) (result : Result) (log : String),
      Arguments.read platform.release words = .ok request ∧ result.code < 2 ∧
      run platform store (withoutOutput words) = ⟨.exit result.code, result.text, log, store⟩ ∧
      (request.output = none ∧
        run platform store words = ⟨.exit result.code, result.text, log, store⟩ ∨
      ∃ output store', request.output = some output ∧
        store.write (Path.ofString output) result.text.toUTF8 = .ok store' ∧
        run platform store words = ⟨.exit result.code, "", log, store'⟩) := by
  rcases run_cases platform store words with
    fails | ⟨request, options, content, text, read, resolves, reads, decodes⟩
  · exact .inl fails
  · have runs := run_eq read resolves reads decodes
    -- Both runs come to the same product, and differ only in where it goes.
    have prints : run platform store (withoutOutput words)
        = deliver store none (process options request.verbose text) :=
      run_eq (read_withoutOutput read) (resolve_printed resolves) reads decodes
    have output := output_of_resolve resolves
    rw [runs]
    rcases deliver_cases store options.output (process options request.verbose text) with
      fails | ⟨result, done, ends⟩
    · exact .inl fails
    · refine .inr ⟨request, result, (process options request.verbose text).log, read,
        code_of_process done, ?_, ?_⟩
      · rw [prints]
        unfold deliver
        rw [done]
        rfl
      · rcases ends with ⟨nowhere, delivered⟩ | ⟨path, store', somewhere, written, delivered⟩
        · rw [output, Option.map_eq_none_iff] at nowhere
          exact .inl ⟨nowhere, delivered⟩
        · rw [output] at somewhere
          obtain ⟨output, asked, rfl⟩ := Option.map_eq_some_iff.1 somewhere
          exact .inr ⟨output, store', asked, written, delivered⟩

/-- A run changes no file but the output that it is asked for, and none unless it ends with the code 0
or 1. The output then holds what the run without this option prints, and both end with this code. -/
theorem run_changes_output (platform : Platform) (store : Store) (words : List String) :
    (∀ place, outputPlace? platform.release store words ≠ some place →
      Store.entry? (run platform store words).store place = store.entry? place) ∧
    ((∀ code < 2, (run platform store words).ending ≠ .exit code) →
      (run platform store words).store = store) ∧
    ∀ request, Arguments.read platform.release words = .ok request →
      Arguments.read platform.release (withoutOutput words) = .ok { request with output := none } ∧
      ∀ output code, request.output = some output → code < 2 →
        (run platform store words).ending = .exit code →
        ∃ text log store', run platform store words = ⟨.exit code, "", log, store'⟩ ∧
          run platform store (withoutOutput words) = ⟨.exit code, text, log, store⟩ ∧
          store'.read (Path.ofString output) = .ok text.toUTF8 := by
  refine ⟨?_, ?_, fun request read => ⟨read_withoutOutput read, ?_⟩⟩
  · intro place elsewhere
    rcases run_outcomes platform store words with
      ⟨same, _⟩ | ⟨request, result, log, read, _, _, ⟨_, runs⟩ | ⟨output, store', asked, written, runs⟩⟩
    · rw [same]
    · rw [runs]
    · obtain ⟨target, located, _, rfl⟩ := Store.exists_place_of_write written
      have there : outputPlace? platform.release store words = some target := by
        rw [outputPlace?, read]
        simp [Except.toOption, asked, located]
      have other : place ≠ target := by
        rintro rfl
        exact elsewhere there
      rw [runs]
      exact Store.entry_set_of_ne other _
  · intro fails
    rcases run_outcomes platform store words with
      ⟨same, _⟩ | ⟨request, result, log, _, bound, _, ⟨_, runs⟩ | ⟨output, store', _, _, runs⟩⟩
    · exact same
    · rw [runs]
    · rw [runs] at fails
      exact absurd rfl (fails _ bound)
  · intro output code asked bound ending
    rcases run_outcomes platform store words with
      ⟨_, fails⟩ | ⟨request', result, log, read', _, prints, ends⟩
    · exact absurd ending (fails code bound)
    · obtain rfl := Except.ok.inj (read'.symm.trans read)
      rcases ends with ⟨nowhere, _⟩ | ⟨output', store', asked', written, runs⟩
      · cases nowhere.symm.trans asked
      · obtain rfl := Option.some.inj (asked'.symm.trans asked)
        rw [runs] at ending
        obtain rfl := Ending.exit.inj ending
        exact ⟨result.text, log, store', runs, prints, Store.read_of_write written⟩

/-- What asks for a check of the script, with the warnings in its place. -/
def inPlaceArguments : Arguments :=
  { checkArguments with output := some "a.kix", verbose := true }

/-- The script is overwritten by the warnings that are else printed, and nothing else is. -/
theorem run_of_inPlaceArguments :
    (outputPlace? .current checkedStore ["--check", "-vo", "a.kix", "a.kix"]
        ≠ some ⟨some 0, ["kixtart.toml"]⟩ ∧
      Store.entry? (run .usual checkedStore ["--check", "-vo", "a.kix", "a.kix"]).store
          ⟨some 0, ["kixtart.toml"]⟩
        = checkedStore.entry? ⟨some 0, ["kixtart.toml"]⟩) ∧
    (run .usual checkedStore ["--check", "-vx", "a.kix"]).store = checkedStore ∧
    Arguments.read .current ["--check", "-vo", "a.kix", "a.kix"] = .ok inPlaceArguments ∧
    ∃ text log store',
      run .usual checkedStore ["--check", "-vo", "a.kix", "a.kix"] = ⟨.exit 1, "", log, store'⟩ ∧
      run .usual checkedStore ["--check", "-v", "a.kix"] = ⟨.exit 1, text, log, checkedStore⟩ ∧
      store'.read (Path.ofString "a.kix") = .ok text.toUTF8 := by
  have read : Arguments.read .current ["--check", "-vo", "a.kix", "a.kix"] = .ok inPlaceArguments := rfl
  have elsewhere : outputPlace? .current checkedStore ["--check", "-vo", "a.kix", "a.kix"]
      ≠ some ⟨some 0, ["kixtart.toml"]⟩ := by
    decide +kernel
  have refused : (run .usual checkedStore ["--check", "-vx", "a.kix"]).ending = .usage 2 := by
    have unread : Arguments.read Platform.usual.release ["--check", "-vx", "a.kix"]
        = .error (.refused (.unrecognized ["-x"])) := rfl
    rw [run, unread]
    rfl
  have located : checkedStore.locate (Path.ofString "a.kix") = .ok ⟨some 0, ["a.kix"]⟩ := rfl
  have free : checkedStore.entry? ⟨some 0, ["a.kix"]⟩ ≠ some .directory := by decide +kernel
  have works : WorksOn .usual checkedStore inPlaceArguments
      ⟨Path.ofString "a.kix", some (Path.ofString "a.kix"), 4, true, false, false⟩ checkedText := by
    refine ⟨rfl, ⟨_, rfl, by decide +kernel⟩, ?_⟩
    rintro _ ⟨rfl⟩ content
    exact ⟨_, (write_of_located located content).trans (if_neg free)⟩
  have warns : (Script.ofText checkedText).warnings ≠ [] := by decide +kernel
  have ending := (@ending_check_iff .usual _ _ _ read rfl).2 ⟨_, checkedText, works, warns⟩
  have dropped : withoutOutput ["--check", "-vo", "a.kix", "a.kix"] = ["--check", "-v", "a.kix"] := by
    decide +kernel
  obtain ⟨others, _, delivered⟩ :=
    run_changes_output .usual checkedStore ["--check", "-vo", "a.kix", "a.kix"]
  have reached := (delivered _ read).2 "a.kix" 1 rfl Nat.one_lt_two ending
  rw [dropped] at reached
  refine ⟨⟨elsewhere, others _ elsewhere⟩, ?_, read, reached⟩
  apply (run_changes_output .usual checkedStore ["--check", "-vx", "a.kix"]).2.1
  intro code _ same
  cases refused.symm.trans same

end KixScript

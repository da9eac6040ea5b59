import KixScript.Command.Run
import KixScript.Proofs.Macros

/-!
# Checks

A check ends with the code 1 if it comes to a text with warnings; whatever keeps it from a text, or
from writing what it has to say, ends it in another way (`ending_check_iff`). The warnings of a text are
the remarks about its macros, so the code tells whether one of them is malformed
(`check_reports_macros`).
-/

namespace KixScript

/-- A run with some arguments comes to a text, and can write what it makes of the text. -/
structure WorksOn (platform : Platform) (store : Store) (arguments : Arguments) (options : Options)
    (text : List Char) : Prop where
  resolves : Options.resolve platform store arguments = .ok options
  reads : ∃ content, store.read options.input = .ok content ∧ Utf8.decode content = .ok text
  writes : ∀ path ∈ options.output, ∀ content, ∃ store', store.write path content = .ok store'

section
variable {platform : Platform} {store : Store} {arguments : Arguments} {options : Options}
  {text : List Char}

/-- A step that is done behind another has been given a value. -/
lemma exists_of_bind_eq_ok {ε α β : Type} {first : Except ε α} {next : α → Except ε β} {result : β}
    (done : (first >>= next) = .ok result) : ∃ value, first = .ok value ∧ next value = .ok result := by
  cases first with
  | error fault => cases done
  | ok value => exact ⟨value, rfl, done⟩

/-- The options ask for a check if the arguments do. -/
lemma check_of_resolve (resolves : Options.resolve platform store arguments = .ok options) :
    options.check = arguments.check := by
  obtain ⟨config, _, resolves⟩ := exists_of_bind_eq_ok resolves
  obtain ⟨configured, _, resolves⟩ := exists_of_bind_eq_ok resolves
  obtain ⟨offset, _, resolves⟩ := exists_of_bind_eq_ok resolves
  obtain rfl := Except.ok.inj resolves
  rfl

/-- What is at a place decides whether a file can be written there. -/
lemma write_of_located {path : Path} {place : Location} (located : store.locate path = .ok place)
    (content : ByteArray) :
    store.write path content = if store.entry? place = some .directory then .error .isADirectory
      else .ok (store.set place (.file content)) := by
  rw [Store.write, located]
  cases entry : store.entry? place with
  | none => simp [bind, Except.bind, entry]
  | some found =>
    cases found with
    | directory => simp [bind, Except.bind, entry]
    | file old => simp [bind, Except.bind, entry]

/-- Whether a file can be written does not hang on what is written. -/
lemma exists_write {path : Path} {content : ByteArray} {store' : Store}
    (written : store.write path content = .ok store') (content' : ByteArray) :
    ∃ store'', store.write path content' = .ok store'' := by
  obtain ⟨place, located, _⟩ := exists_of_bind_eq_ok written
  rw [write_of_located located] at written ⊢
  split at written
  · cases written
  · rename_i free
    exact ⟨_, if_neg free⟩

/-- What is written ends the run with its code, if it can be written. -/
lemma ending_deliver_iff {product : Product} {result : Result} (done : product.result = .ok result)
    (output : Option Path) (code : Nat) :
    (deliver store output product).ending = .exit code ↔ result.code = code ∧
      ∀ path ∈ output, ∀ content, ∃ store', store.write path content = .ok store' := by
  unfold deliver
  rw [done]
  cases output with
  | none => exact ⟨fun ending => ⟨Ending.exit.inj ending, nofun⟩, fun ⟨same, _⟩ => congrArg _ same⟩
  | some path =>
    dsimp only
    cases written : store.write path result.text.toUTF8 with
    | error fault =>
      refine ⟨nofun, fun ⟨_, writes⟩ => ?_⟩
      obtain ⟨store', fails⟩ := writes path rfl result.text.toUTF8
      cases written.symm.trans fails
    | ok store' =>
      refine ⟨fun ending => ⟨Ending.exit.inj ending, ?_⟩, fun ⟨same, _⟩ => congrArg _ same⟩
      rintro _ ⟨rfl⟩ content
      exact exists_write written content

/-- A check prints the warnings, and fails if there are any. -/
lemma result_of_check (check : options.check = true) (verbose : Bool) (text : List Char) :
    (process options verbose text).result
      = .ok ⟨(Script.ofText text).printWarnings options.input.print,
          if (Script.ofText text).warnings.isEmpty then 0 else 1⟩ := by
  rw [process]
  dsimp only
  rw [if_pos check]

/-- What a check comes to with its options. -/
lemma ending_runWith_iff (check : options.check = true) (verbose : Bool) :
    (runWith store options verbose).ending = .exit 1 ↔ ∃ text,
      (∃ content, store.read options.input = .ok content ∧ Utf8.decode content = .ok text) ∧
      (∀ path ∈ options.output, ∀ content, ∃ store', store.write path content = .ok store') ∧
      (Script.ofText text).warnings ≠ [] := by
  unfold runWith
  cases input : store.read options.input with
  | error fault =>
    refine ⟨fun ending => ?_, fun ⟨_, ⟨_, reads, _⟩, _⟩ => ?_⟩
    · cases fault <;> cases ending
    · cases reads
  | ok content =>
    dsimp only
    cases decoded : Utf8.decode content with
    | error fault =>
      refine ⟨nofun, fun ⟨_, ⟨_, reads, decodes⟩, _⟩ => ?_⟩
      rw [← Except.ok.inj reads, decoded] at decodes
      cases decodes
    | ok text =>
      dsimp only
      rw [ending_deliver_iff (result_of_check check verbose text)]
      constructor
      · rintro ⟨code, writes⟩
        refine ⟨text, ⟨content, rfl, decoded⟩, writes, fun nothing => ?_⟩
        rw [nothing] at code
        cases code
      · rintro ⟨other, ⟨_, reads, decodes⟩, writes, some_warning⟩
        rw [← Except.ok.inj reads, decoded] at decodes
        obtain rfl := Except.ok.inj decodes
        exact ⟨if_neg fun nothing => some_warning (List.isEmpty_iff.1 nothing), writes⟩

/-- A check ends with the code 1 if it comes to a text with warnings, and in no other way. -/
lemma ending_check_iff {words : List String}
    (read : Arguments.read platform.release words = .ok arguments) (check : arguments.check = true) :
    (run platform store words).ending = .exit 1 ↔
      ∃ options text, WorksOn platform store arguments options text ∧
        (Script.ofText text).warnings ≠ [] := by
  unfold run
  rw [read]
  dsimp only
  cases resolves : Options.resolve platform store arguments with
  | error error =>
    refine ⟨fun ending => ?_, fun ⟨_, _, works, _⟩ => ?_⟩
    · cases error <;> cases ending
    · cases resolves.symm.trans works.resolves
  | ok options =>
    dsimp only
    rw [ending_runWith_iff ((check_of_resolve resolves).trans check)]
    constructor
    · rintro ⟨text, reads, writes, some_warning⟩
      exact ⟨options, text, ⟨resolves, reads, writes⟩, some_warning⟩
    · rintro ⟨other, text, works, some_warning⟩
      obtain rfl := Except.ok.inj (resolves.symm.trans works.resolves)
      exact ⟨text, works.reads, works.writes, some_warning⟩

end

/-- The warnings about a script are the remarks about its macros, in order. A check ends with the code 1
if and only if its text has a macro that is not known. -/
theorem check_reports_macros :
    (∀ text, Remarks (Script.ofText text) (Script.ofText text).macroSigils
      (Script.ofText text).warnings) ∧
    ∀ platform store words arguments, Arguments.read platform.release words = .ok arguments →
      arguments.check = true →
      ((run platform store words).ending = .exit 1 ↔
        ∃ options text, WorksOn platform store arguments options text ∧
          ∃ offset ∈ (Script.ofText text).macroSigils,
            String.ofList (lower (runBehind text offset)) ∉ macroNames) := by
  refine ⟨warnings_remarks, ?_⟩
  intro platform store words arguments read check
  rw [ending_check_iff read check]
  have malformed : ∀ text, (Script.ofText text).warnings ≠ [] ↔
      ∃ offset ∈ (Script.ofText text).macroSigils,
        String.ofList (lower (runBehind text offset)) ∉ macroNames := by
    intro text
    rw [Ne, (warnings_remarks text).eq_nil_iff]
    simp only [not_forall, exists_prop, Script.ofText]
  simp only [malformed]

/-- A macro that is known, one with a letter too many, one that is not known, and one in a comment. -/
def checkedText : List Char :=
  "@Date @Dates\n@Nix ; @Foo".toList

/-- A directory with a script. -/
def checkedStore : Store :=
  Store.empty.put (Path.ofString "a.kix") (.file (String.ofList checkedText).toUTF8)

/-- What asks for a check of the script. -/
def checkArguments : Arguments :=
  { Arguments.none with input := some "a.kix", check := true }

/-- Of three macros one has a character too many and one is unknown, so the check fails. -/
theorem check_of_checkedText :
    Arguments.read .current ["--check", "a.kix"] = .ok checkArguments ∧
    (Script.ofText checkedText).macroSigils = [0, 6, 13] ∧
    Remarks (Script.ofText checkedText) [0, 6, 13]
      [⟨"characters 's' after macro are ignored", 1, 12, 1⟩,
        ⟨"unknown macro '@Nix' evaluates to 0", 2, 1, 4⟩] ∧
    (run .usual checkedStore ["--check", "a.kix"]).ending = .exit 1 := by
  have sigils : (Script.ofText checkedText).macroSigils = [0, 6, 13] := by decide +kernel
  have warnings : (Script.ofText checkedText).warnings
      = [⟨"characters 's' after macro are ignored", 1, 12, 1⟩,
          ⟨"unknown macro '@Nix' evaluates to 0", 2, 1, 4⟩] := by
    decide +kernel
  have remarks := check_reports_macros.1 checkedText
  rw [sigils, warnings] at remarks
  have read : Arguments.read .current ["--check", "a.kix"] = .ok checkArguments := rfl
  have works : WorksOn .usual checkedStore checkArguments
      ⟨Path.ofString "a.kix", none, 4, true, false, false⟩ checkedText :=
    ⟨rfl, ⟨_, rfl, by decide +kernel⟩, nofun⟩
  refine ⟨read, sigils, remarks, ?_⟩
  refine (check_reports_macros.2 .usual checkedStore _ _ read rfl).2 ⟨_, checkedText, works, 6, ?_, ?_⟩
  · rw [sigils]
    decide
  · decide +kernel

end KixScript

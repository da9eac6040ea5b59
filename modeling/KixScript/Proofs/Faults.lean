import KixScript.Layout
import Mathlib.Tactic.Common

/-!
# What formatting fails with

A value gives columns per level if it is an integer that is not negative. Any other one is refused, and
this is told if the value can be printed (`checkOffset_refused_iff`, `checkOffset_untold_iff`). With
columns per level, a text is returned unless a line of it would have no length (`tryReindent_short`,
`tryReindent_long`).
-/

namespace KixScript

/-! ## Lengths -/

/-- A character can be repeated as often as a length can tell. -/
lemma lengthFault?_eq_none {count : Nat} : lengthFault? count = none ↔ count < Nat.pow 2 63 := by
  have lower : -Int.pow 2 63 ≤ 0 := by decide
  have upper : Int.pow 2 63 = (Nat.pow 2 63 : Nat) := by decide
  have index : isIndex count = true ↔ count < Nat.pow 2 63 := by
    rw [isIndex, Bool.and_eq_true, decide_eq_true_eq, decide_eq_true_eq]
    omega
  rw [← index, lengthFault?]
  cases isIndex count with
  | true => exact iff_of_true rfl rfl
  | false => exact iff_of_false (Option.some_ne_none _) Bool.false_ne_true

/-- A layout can be written if every line has a length. -/
lemma layoutFault?_eq_none {placed : List PlacedLine} :
    Script.layoutFault? placed = none ↔ ∀ line ∈ placed, line.indent < Nat.pow 2 63 := by
  rw [Script.layoutFault?, List.findSome?_eq_none_iff]
  exact forall₂_congr fun _ _ => lengthFault?_eq_none

section
variable {script : Script} {offset : Nat}

/-- Indenting anew returns a text if no line has a fault. -/
lemma tryReindent_eq_ok {result : List Char} :
    script.tryReindent offset = .ok result ↔
      Script.layoutFault? (script.layout offset) = none ∧ script.reindent offset = result := by
  rw [Script.tryReindent]
  cases Script.layoutFault? (script.layout offset) with
  | some fault => simp
  | none => simp

/-- Indenting anew fails with the fault of the layout. -/
lemma tryReindent_eq_error {fault : LengthFault} :
    script.tryReindent offset = .error fault ↔
      Script.layoutFault? (script.layout offset) = some fault := by
  rw [Script.tryReindent]
  cases Script.layoutFault? (script.layout offset) with
  | some found => simp
  | none => simp

/-- A script whose lines all have lengths is indented anew. -/
lemma tryReindent_short (short : ∀ line ∈ script.layout offset, line.indent < Nat.pow 2 63) :
    script.tryReindent offset = .ok (script.reindent offset) :=
  tryReindent_eq_ok.2 ⟨layoutFault?_eq_none.2 short, rfl⟩

/-- A script with a line that would have no length is not indented anew. -/
lemma tryReindent_long {line : PlacedLine} (mem : line ∈ script.layout offset)
    (long : Nat.pow 2 63 ≤ line.indent) : script.tryReindent offset = .error .notALength := by
  rw [tryReindent_eq_error]
  cases faulty : Script.layoutFault? (script.layout offset) with
  | none => exact absurd (layoutFault?_eq_none.1 faulty line mem) (Nat.not_lt.2 long)
  | some fault => cases fault with | notALength => rfl

end

/-! ## Offsets -/

/-- Only integers that are not negative are taken as columns per level. The refusal of another value
can be told if the value can be printed. -/
lemma indentOffset_cases (value : Value) :
    (∃ columns : Nat, value = .integer columns ∧ indentOffset value = .ok columns) ∨
      (∀ columns : Nat, value ≠ .integer columns) ∧
        ∃ error, indentOffset value = .error error ∧
          ∀ room, error.printFault? room = value.printFault? room := by
  cases value with
  | integer number =>
    cases number with
    | ofNat columns => exact .inl ⟨columns, rfl, rfl⟩
    | negSucc below =>
      refine .inr ⟨?_, _, rfl, fun _ => rfl⟩
      intro columns same
      cases Value.integer.inj same
  | _ =>
    refine .inr ⟨?_, _, rfl, fun _ => rfl⟩
    intro columns same
    cases same

/-- A number below zero is refused as such. -/
lemma indentOffset_negative {number : Int} (below : number < 0) :
    indentOffset (.integer number) = .error (.negative number) := by
  cases number with
  | ofNat columns => exact absurd below (Int.not_lt.2 (Int.natCast_nonneg columns))
  | negSucc under => rfl

section
variable {room : Nat} {value : Value} {error : OffsetError}

/-- An offset that is accepted passes. -/
lemma checkOffset_ok {columns : Nat} (accepted : indentOffset value = .ok columns) :
    checkOffset room value = .ok columns := by
  rw [checkOffset, accepted]
  rfl

/-- A refusal that can be printed is told. -/
lemma checkOffset_refused (refused : indentOffset value = .error error)
    (told : error.printFault? room = none) : checkOffset room value = .error (.refused error) := by
  rw [checkOffset, refused]
  show Except.error (error.told room) = _
  rw [OffsetError.told, told]
  rfl

/-- A refusal that cannot be printed gives way to the fault of its printing. -/
lemma checkOffset_untold {fault : PrintFault} (refused : indentOffset value = .error error)
    (unprintable : error.printFault? room = some fault) :
    checkOffset room value = .error (.untold fault) := by
  rw [checkOffset, refused]
  show Except.error (error.told room) = _
  rw [OffsetError.told, unprintable]
  rfl

/-- A value is refused if it is no number of columns, and if this can be told. -/
lemma checkOffset_refused_iff :
    (∃ error, checkOffset room value = .error (.refused error)) ↔
      (∀ columns : Nat, value ≠ .integer columns) ∧ value.printFault? room = none := by
  rcases indentOffset_cases value with ⟨columns, rfl, accepted⟩ | ⟨no_offset, error, refused, same⟩
  · rw [checkOffset_ok accepted]
    refine iff_of_false ?_ fun ⟨other, _⟩ => other columns rfl
    rintro ⟨error, refused⟩
    cases refused
  · rw [← same room]
    cases printed : error.printFault? room with
    | none => exact iff_of_true ⟨error, checkOffset_refused refused printed⟩ ⟨no_offset, rfl⟩
    | some fault =>
      rw [checkOffset_untold refused printed]
      refine iff_of_false ?_ fun ⟨_, told⟩ => Option.some_ne_none _ told
      rintro ⟨other, refused⟩
      cases refused

/-- The refusal of a value is not told if the value cannot be printed. -/
lemma checkOffset_untold_iff {fault : PrintFault} :
    checkOffset room value = .error (.untold fault) ↔
      (∀ columns : Nat, value ≠ .integer columns) ∧ value.printFault? room = some fault := by
  rcases indentOffset_cases value with ⟨columns, rfl, accepted⟩ | ⟨no_offset, error, refused, same⟩
  · rw [checkOffset_ok accepted]
    refine iff_of_false ?_ fun ⟨other, _⟩ => other columns rfl
    intro refused
    cases refused
  · rw [← same room]
    cases printed : error.printFault? room with
    | none =>
      rw [checkOffset_refused refused printed]
      refine iff_of_false ?_ fun ⟨_, untold⟩ => Option.some_ne_none _ untold.symm
      intro untold
      cases untold
    | some other =>
      rw [checkOffset_untold refused printed]
      constructor
      · intro same
        cases same
        exact ⟨no_offset, rfl⟩
      · rintro ⟨_, same⟩
        rw [Option.some.inj same]

end

end KixScript

import KixScript.Proofs.Snippets
import KixScript.Proofs.Symbols

/-!
# Reports about macros

A malformed macro is reported twice: by a warning, with a line and a column counted from one, and by a
diagnostic of the document, with a range counted from zero. Both are made from the same part of the
code, whose characters stand on one line. So the warning quotes what stands at its line and column
(`flags_of_part`), and the diagnostic covers the same characters (`covers_of_part`). The parts stand in
order, and a later offset has a later place (`warnings_before`).
-/

namespace KixScript

/-- The texts of a warning, around the characters that they quote. -/
inductive Quotes (flagged : List Char) : String → Prop where
  | dropped : Quotes flagged ("characters '" ++ String.ofList flagged ++ "' after macro are ignored")
  | unknown : Quotes flagged ("unknown macro '" ++ String.ofList flagged ++ "' evaluates to 0")

namespace Warning

/-- Whether a warning is about an earlier line, or an earlier column of the same line. -/
def Before (warning warning' : Warning) : Prop :=
  warning.line < warning'.line ∨ warning.line = warning'.line ∧ warning.column < warning'.column

/-- The characters that a warning quotes are those on its line from its column on, as many as it
counts. All of them stand before what ends the line. -/
structure Flags (text : List Char) (warning : Warning) (flagged : List Char) : Prop where
  quotes : Quotes flagged warning.message
  line_pos : 1 ≤ warning.line
  column_pos : 1 ≤ warning.column
  length_pos : 1 ≤ warning.length
  stands : ∃ line, (Script.ofText text).lines[(warning.line - 1).toNat]? = some line ∧
    (line.text.drop (warning.column - 1).toNat).take warning.length.toNat = flagged ∧
    warning.column - 1 + warning.length ≤ line.text.length

end Warning

/-- A diagnostic says what a warning says, about a range on the line of the warning which holds the
characters that the warning quotes. -/
structure Diagnostic.Covers (text : List Char) (warning : Warning) (diagnostic : Diagnostic) :
    Prop where
  message : diagnostic.message = warning.message
  line : (diagnostic.range.start.line : Int) = warning.line - 1
  column : (diagnostic.range.start.column : Int) = warning.column - 1
  stop_line : diagnostic.range.stop.line = diagnostic.range.start.line
  stop_column : (diagnostic.range.stop.column : Int) = warning.column - 1 + warning.length
  covered : warning.Flags text (diagnostic.range.cut text)

/-- A run is cut out of the line that holds it. -/
lemma Line.Holds.take_drop {line : Line} {column : Nat} {run : List Char}
    (holds : line.Holds column run) : (line.text.drop column).take run.length = run := by
  obtain ⟨before, behind, same, length⟩ := holds
  rw [same, List.drop_left' length, List.take_left]

section
variable {text : List Char} {part part' : Part}

/-- The warning about a part quotes the characters of the part, and they stand where it says. -/
lemma flags_of_part (mem : part ∈ (Script.ofText text).highlight) (warns : part.warning = true) :
    ((Script.ofText text).warningFor part).Flags text
      ((Script.ofText text).slice part.start part.stop) := by
  obtain ⟨line, points⟩ := exists_pointsAt_of_part mem warns
  have some_run := List.length_pos_iff.2 points.nonempty
  have within := points.holds.length_le
  have line_eq := points.line_eq
  have column_eq := points.column_eq
  have length_eq := points.length_eq
  refine ⟨?_, by omega, by omega, by omega, line, ?_, ?_, by omega⟩
  · rw [Script.warningFor]
    dsimp only
    cases part.role with
    | trailing => exact .dropped
    | _ => exact .unknown
  · rw [points.toNat_line]
    exact points.found
  · rw [points.toNat_column, length_eq, Int.toNat_natCast]
    exact points.holds.take_drop

/-- The diagnostic for a part covers what the warning about it quotes. -/
lemma covers_of_part (mem : part ∈ (Script.ofText text).highlight) (warns : part.warning = true) :
    Diagnostic.Covers text ((Script.ofText text).warningFor part)
      ⟨Range.onLine ((Script.ofText text).position part.start).line
          ((Script.ofText text).position part.start).column (part.stop - part.start),
        ((Script.ofText text).warningFor part).message⟩ := by
  obtain ⟨front, run, back, parts, start, stop, _, _⟩ := exists_run_of_part mem
  have bound : part.start ≤ text.length := by
    rw [parts, List.length_append, start]
    exact Nat.le_add_right _ _
  have order : part.start ≤ part.stop := by omega
  have cut := cut_onLine bound (part.stop - part.start)
  rw [Nat.add_sub_cancel' order] at cut
  refine ⟨rfl, ?_, ?_, rfl, ?_, ?_⟩
  · rw [Script.warningFor]
    exact (Int.add_sub_cancel _ 1).symm
  · rw [Script.warningFor]
    exact (Int.add_sub_cancel _ 1).symm
  · rw [Script.warningFor, Range.onLine]
    dsimp only
    omega
  · rw [cut]
    exact flags_of_part mem warns

/-- The warning about an earlier part comes before that about a later one. -/
lemma warnings_before (mem : part ∈ (Script.ofText text).highlight)
    (mem' : part' ∈ (Script.ofText text).highlight) (order : part.stop ≤ part'.start) :
    ((Script.ofText text).warningFor part).Before ((Script.ofText text).warningFor part') := by
  obtain ⟨front, run, back, parts, start, stop, some_run, _⟩ := exists_run_of_part mem
  obtain ⟨front', run', back', parts', start', _⟩ := exists_run_of_part mem'
  have some_text := List.length_pos_iff.2 some_run
  have bound : part'.start ≤ text.length := by
    rw [parts', List.length_append, start']
    exact Nat.le_add_right _ _
  have places := position_before (show part.start < part'.start by omega) bound
  rw [Script.warningFor, Script.warningFor]
  unfold Position.Before at places
  unfold Warning.Before
  dsimp only
  omega

end

/-- There is one warning for each malformed macro, in the order of their places, and it quotes what
stands there. One diagnostic is published for each warning, and covers on one line what that quotes. -/
theorem reports_are_exact (room : Nat) (workspace : Workspace) (name : String) (text : List Char) :
    (Script.ofText text).warnings.Pairwise Warning.Before ∧
    List.Forall₂
      (fun part warning => warning.Flags text ((Script.ofText text).slice part.start part.stop))
      ((Script.ofText text).highlight.filter Part.warning) (Script.ofText text).warnings ∧
    ∃ diagnostics, workspace.handle room (.store name text)
        = (.published name diagnostics, workspace.store name text) ∧
      List.Forall₂ (Diagnostic.Covers text) (Script.ofText text).warnings diagnostics := by
  refine ⟨?_, ?_, _, rfl, ?_⟩
  · rw [Script.warnings, List.pairwise_map]
    refine ((pairwise_highlight text).filter Part.warning).imp_of_mem ?_
    intro part part' mem mem' order
    exact warnings_before (List.mem_filter.1 mem).1 (List.mem_filter.1 mem').1 order
  · rw [Script.warnings, List.forall₂_map_right_iff, List.forall₂_same]
    intro part mem
    obtain ⟨mem, warns⟩ := List.mem_filter.1 mem
    exact flags_of_part mem warns
  · rw [Script.warnings, Script.diagnostics, List.forall₂_map_left_iff, List.forall₂_map_right_iff,
      List.forall₂_same]
    intro part mem
    obtain ⟨mem, warns⟩ := List.mem_filter.1 mem
    exact covers_of_part mem warns

/-- Of a macro name with more behind it, only the rest is reported. -/
example : (Script.ofText "@DateX\r\n\t@Nix".toList).diagnostics
    = [⟨⟨⟨0, 5⟩, ⟨0, 6⟩⟩, "characters 'X' after macro are ignored"⟩,
      ⟨⟨⟨1, 1⟩, ⟨1, 5⟩⟩, "unknown macro '@Nix' evaluates to 0"⟩] := by
  decide +kernel

end KixScript

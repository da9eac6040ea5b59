import KixScript.Proofs.Access
import Mathlib.Data.Prod.Lex
import Mathlib.Data.Set.Function

/-!
# Offsets and places

The offsets of a text and the places on its lines are in bijection. A place is a line and a column up
to the end of its row. Counting from the start of a line leads to the place of an offset
(`position_on_line`), and every offset has a place. A later offset has a later place, so no two have the
same one.
-/

namespace KixScript

/-- Places are compared by their lines, and on one line by their columns. -/
def Position.key (place : Position) : ℕ ×ₗ ℕ :=
  toLex (place.line, place.column)

/-- The line with a number. It starts, has its first character that is not blank, and stops at offsets
that are on the line. They are what is read from the table of lines, and what the number is said to
point to. -/
structure Script.HasLine (script : Script) (number : Nat) (line : Line) : Prop where
  found : script.lines[number]? = some line
  start : script.lineStart number = line.start
  first : script.readFirstNonblank number = some line.firstNonblank
  stop : script.readStop number = some line.stop
  bounds : isIndex number = true → script.bounds number = .ok line.bounds
  bounds_first : line.bounds.firstNonblank script = line.firstNonblank
  start_le_first : line.start ≤ line.firstNonblank
  first_le_stop : line.firstNonblank ≤ line.stop
  on_line : ∀ offset ∈ Set.Icc line.start line.stop, script.lineOf offset = number

/-! ## Lines -/

section
variable {text : List Char} {number : Nat} {line : Line}
  (found : (Script.ofText text).lines[number]? = some line)
include found

/-- The place that a column on a line is. -/
lemma position_on_line {column : Nat} (bound : column ≤ line.row.length) :
    (Script.ofText text).position (line.start + column) = ⟨number, column⟩ := by
  obtain ⟨rest, stands⟩ := exists_standsIn found
  have no_newline : '\n' ∉ line.row.take column := fun mem =>
    no_newline_of_mem_lines (List.mem_of_getElem? found) (List.mem_of_mem_take mem)
  have place := position_of_row stands.whole no_newline (line.row.drop column ++ rest)
  rwa [← List.append_assoc (line.row.take column), List.take_append_drop, ← stands.parts,
    List.length_take_of_le bound, ← stands.start, count_textAbove found] at place

/-- Rows lie in the text. -/
lemma row_stop_le_length : line.start + line.row.length ≤ text.length := by
  obtain ⟨rest, stands⟩ := exists_standsIn found
  have length := congrArg List.length stands.parts
  rw [List.length_append, List.length_append, ← stands.start] at length
  omega

/-- A line of the script is the one with its number. -/
lemma hasLine : (Script.ofText text).HasLine number line where
  found := found
  start := by
    rw [Script.lineStart, found]
    rfl
  first := readFirstNonblank_eq found
  stop := readStop_eq found
  bounds := bounds_eq found
  bounds_first := bounds_firstNonblank found
  start_le_first := Nat.le_add_right _ _
  first_le_stop := Nat.add_le_add_left (List.takeWhile_prefix isBlank).length_le _
  on_line := by
    rintro offset ⟨lower, upper⟩
    obtain ⟨column, rfl⟩ := Nat.exists_eq_add_of_le lower
    have within : line.text.length ≤ line.row.length := by
      rw [← line.text_append_ending, List.length_append]
      exact Nat.le_add_right _ _
    rw [Line.stop] at upper
    exact congrArg Position.line (position_on_line found (by omega))

end

section
variable {text : List Char}

/-! ## Offsets -/

/-- A clamped offset stays on its line. -/
lemma lineOf_clamp (offset : Int) :
    (Script.ofText text).lineOf ((Script.ofText text).clamp offset)
      = (Script.ofText text).lineOf offset := by
  have again : (Script.ofText text).clamp ((Script.ofText text).clamp offset)
      = (Script.ofText text).clamp offset := Nat.min_eq_left (clamp_le_length text offset)
  rw [Script.lineOf, again]
  rfl

/-- The line that an offset lies on begins no later, and the next one does. -/
lemma clamp_between (offset : Int) :
    (Script.ofText text).lineStart ((Script.ofText text).lineOf offset)
        ≤ (Script.ofText text).clamp offset ∧
      ((Script.ofText text).lineOf offset + 1 < (Script.ofText text).lineCount →
        (Script.ofText text).clamp offset
          < (Script.ofText text).lineStart ((Script.ofText text).lineOf offset + 1)) := by
  obtain ⟨line, found, column, same⟩ := exists_line_of_offset (clamp_le_length text offset)
  have number : ((Script.ofText text).position ((Script.ofText text).clamp offset)).line
      = (Script.ofText text).lineOf offset := lineOf_clamp offset
  rw [number] at found
  rw [(hasLine found).start]
  refine ⟨by omega, ?_⟩
  intro more
  have next : (Script.ofText text).lineStart ((Script.ofText text).lineOf offset + 1)
      = line.start + line.row.length + 1 := by
    rw [Script.lineStart, ← List.getElem?_map]
    exact congrArg (Option.getD · 0) (lineStarts_succ found more)
  omega

/-- Later offsets have later places. -/
lemma strictMonoOn_position :
    StrictMonoOn (fun offset => ((Script.ofText text).position offset).key)
      (Set.Iic (Script.ofText text).length) := by
  intro offset _ offset' bound order
  exact Prod.Lex.toLex_lt_toLex.2 (position_before order bound)

/-- Offsets and places are in bijection. -/
lemma bijOn_position :
    Set.BijOn (Script.ofText text).position (Set.Iic (Script.ofText text).length)
      (Script.ofText text).places := by
  refine ⟨?_, ?_, ?_⟩
  · intro offset bound
    exact position_mem_places bound
  · intro offset bound offset' bound' same
    exact strictMonoOn_position.injOn bound bound' (congrArg Position.key same)
  · rintro ⟨number, column⟩ ⟨line, found, bound⟩
    refine ⟨line.start + column, ?_, position_on_line found bound⟩
    exact Nat.le_trans (Nat.add_le_add_left bound _) (row_stop_le_length found)

end

/-- Offsets and places are in bijection and in the same order. An offset lies on the line with as many
line feeds above it, and what is known of a line by its number is on the line. -/
theorem offsets_and_places (text : List Char) :
    (∀ offset : Int,
      (Script.ofText text).clamp offset = min (max 0 offset) text.length ∧
      (Script.ofText text).searchLine offset = (Script.ofText text).lineOf offset ∧
      (Script.ofText text).lineOf offset
        = (text.take ((Script.ofText text).clamp offset)).count '\n' ∧
      (Script.ofText text).lineStart ((Script.ofText text).lineOf offset)
        ≤ (Script.ofText text).clamp offset ∧
      ((Script.ofText text).lineOf offset + 1 < (Script.ofText text).lineCount →
        (Script.ofText text).clamp offset
          < (Script.ofText text).lineStart ((Script.ofText text).lineOf offset + 1))) ∧
    Set.BijOn (Script.ofText text).position (Set.Iic text.length) (Script.ofText text).places ∧
    StrictMonoOn (fun offset => ((Script.ofText text).position offset).key) (Set.Iic text.length) ∧
    ∀ number < (Script.ofText text).lineCount,
      ∃ line, (Script.ofText text).HasLine number line := by
  refine ⟨?_, bijOn_position, strictMonoOn_position, ?_⟩
  · intro offset
    refine ⟨?_, searchLine_eq offset, ?_, clamp_between offset⟩
    · have length : (Script.ofText text).length = text.length := rfl
      rw [Script.clamp, length]
      omega
    · rw [← lineOf_clamp, lineOf_eq_count text (clamp_le_length text offset)]
  · intro number bound
    exact ⟨_, hasLine (List.getElem?_eq_getElem bound)⟩

/-- Three lines: a tab, nothing, and a blank with a letter. Carriage returns end them all. -/
def returnsText : List Char :=
  "\t\r\n\r\n x\r".toList

/-- The second line has no text, so it stops where it starts. The line feed behind its carriage return
still comes before the third line. -/
theorem places_of_returnsText :
    (Script.ofText returnsText).lineOf 4 + 1 < (Script.ofText returnsText).lineCount ∧
      (Script.ofText returnsText).clamp 4
        < (Script.ofText returnsText).lineStart ((Script.ofText returnsText).lineOf 4 + 1) ∧
      (Script.ofText returnsText).HasLine 1 ⟨3, ['\r']⟩ := by
  obtain ⟨offsets, _, _, lines⟩ := offsets_and_places returnsText
  have more : (Script.ofText returnsText).lineOf 4 + 1 < (Script.ofText returnsText).lineCount := by
    decide +kernel
  have found : (Script.ofText returnsText).lines[1]? = some ⟨3, ['\r']⟩ := by decide +kernel
  obtain ⟨line, stands⟩ := lines 1 (by decide +kernel)
  obtain rfl := Option.some.inj (found.symm.trans stands.found)
  exact ⟨more, (offsets 4).2.2.2.2 more, stands⟩

end KixScript

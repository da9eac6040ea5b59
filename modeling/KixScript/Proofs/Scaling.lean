import KixScript.Proofs.TopDown

/-!
# Columns and the offset

A text that is indented anew has its lines at the columns of the layout (`indentations_reindent`). If
every line begins in code, a column is a sum of levels along a chain of lines, each cut off at the
margin, and the cut is made at the same levels whatever the offset is. So the columns for an offset
are those for the offset 1, multiplied (`indentation_scales`).
-/

namespace KixScript

/-! ## The lines that are written -/

/-- The column of the first character of a row that is not blank. -/
def rowIndentation (row : List Char) : Nat :=
  columnAfter 0 (row.takeWhile isBlank)

/-- The indentation of a line is that of its row. -/
lemma Line.indentation_eq (line : Line) : line.indentation = rowIndentation line.row := by
  show columnAfter 0 line.blanks = columnAfter 0 (line.row.takeWhile isBlank)
  rw [line.takeWhile_row]

/-- The indentations of the lines are those of the rows. -/
lemma indentations_eq (text : List Char) :
    (Script.ofText text).lines.map Line.indentation = (rows text).map rowIndentation := by
  calc (Script.ofText text).lines.map Line.indentation
      = ((Script.ofText text).lines.map Line.row).map rowIndentation := by
        rw [List.map_map]
        exact List.map_congr_left fun line _ => line.indentation_eq
    _ = (rows text).map rowIndentation :=
        congrArg (List.map rowIndentation) (row_of_linesFrom 0 (rows text))

/-- A carriage return at the end of a text indents nothing. -/
lemma indentations_append_return (text : List Char) :
    (rows (text ++ ['\r'])).map rowIndentation = (rows text).map rowIndentation := by
  obtain ⟨above, row, split, same⟩ := exists_last_row text
  have no_newline : ∀ other ∈ above ++ [row], '\n' ∉ other := by
    intro other mem
    apply no_newline_of_mem_rows
    rwa [split]
  have last : rows (row ++ ['\r']) = [row ++ ['\r']] := by
    apply rows_of_no_newline
    intro mem
    rcases List.mem_append.1 mem with mem | mem
    · exact no_newline row (List.mem_append_right _ List.mem_cons_self) mem
    · exact absurd mem (by decide)
  have blanks : rowIndentation (row ++ ['\r']) = rowIndentation row := by
    apply congrArg (columnAfter 0)
    apply takeWhile_append_stop
    intro c mem
    cases mem
    rfl
  rw [split, same, List.append_assoc,
    rows_flatMap_append fun other mem => no_newline other (List.mem_append_left _ mem), last,
    List.map_append, List.map_append, List.map_singleton, List.map_singleton, blanks]

/-- Placed rows are indented to their columns. -/
lemma indentations_placedRows (script : Script) (offset : Nat) (columns : List Nat)
    (lines : List Line) :
    (placedRows lines (script.placeLines offset columns lines)).map rowIndentation
      = (script.placeLines offset columns lines).map PlacedLine.column := by
  induction lines generalizing columns with
  | nil => rfl
  | cons line below ih =>
    have first := indentation_placeLine script offset columns line 0
    rw [Line.indentation_eq] at first
    exact congrArg₂ List.cons first (ih _)

/-- The lines of a text that is indented anew stand at their columns. -/
lemma indentations_reindent (text : List Char) (offset : Nat) :
    (Script.ofText ((Script.ofText text).reindent offset)).lines.map Line.indentation
      = ((Script.ofText text).layout offset).map PlacedLine.column := by
  have written : (Script.ofText text).reindent offset ++ lostReturn text
      = unrows (placedRows (Script.ofText text).lines ((Script.ofText text).layout offset)) := by
    rw [← lastEnding_lines]
    exact writeLines_append_lastEnding (length_layout _ _)
  have split : rows ((Script.ofText text).reindent offset ++ lostReturn text)
      = placedRows (Script.ofText text).lines ((Script.ofText text).layout offset) := by
    rw [written]
    apply rows_unrows
    · apply List.ne_nil_of_length_pos
      rw [length_placedRows]
      exact List.length_pos_iff.2 (rows_ne_nil text)
    · exact no_newline_of_forall₂_relaid (relaid_placeLines _ _ _ _) fun _ => no_newline_of_mem_lines
  have kept : (rows ((Script.ofText text).reindent offset ++ lostReturn text)).map rowIndentation
      = (rows ((Script.ofText text).reindent offset)).map rowIndentation := by
    rw [lostReturn]
    split
    · exact indentations_append_return _
    · rw [List.append_nil]
  rw [indentations_eq, ← kept, split]
  exact indentations_placedRows _ _ _ _

/-! ## Multiplied columns -/

/-- The cut at the margin does not mix with the offset. -/
lemma columnAt_mul (offset base : Nat) (levels : Int) :
    columnAt offset (offset * base) levels = offset * columnAt 1 base levels := by
  have single : columnAt 1 base levels = (base + levels : Int).toNat := by
    rw [columnAt, Int.natCast_one, Int.one_mul]
  have parts : columnAt offset (offset * base) levels = (offset * (base + levels) : Int).toNat := by
    rw [columnAt, Int.natCast_mul, Int.mul_add]
  rw [single, parts]
  rcases Int.le_total 0 (base + levels) with inside | outside
  · obtain ⟨column, same⟩ := Int.eq_ofNat_of_zero_le inside
    rw [same, ← Int.natCast_mul, Int.toNat_natCast, Int.toNat_natCast]
  · have beyond := Int.mul_nonpos_of_nonneg_of_nonpos (Int.natCast_nonneg offset) outside
    rw [Int.toNat_of_nonpos outside, Int.toNat_of_nonpos beyond, Nat.mul_zero]

/-- A placed line stands `factor` times as far to the right as another one. -/
structure PlacedLine.Scales (factor : Nat) (placed placed' : PlacedLine) : Prop where
  column : placed'.column = factor * placed.column
  indent : placed'.indent = factor * placed.indent

section
variable {script : Script} (offset : Nat)

/-- A line in code that is placed against multiplied columns is placed at a multiplied column. -/
lemma placeLine_scales {line : Line}
    (in_code : (script.contextAt line.firstNonblank).inCode = true) (columns : List Nat) :
    (script.placeLine 1 columns line).Scales offset
      (script.placeLine offset (columns.map (offset * ·)) line) := by
  obtain ⟨base, levels, plan⟩ := planLine_of_inCode in_code
  rw [Script.placeLine, Script.placeLine, plan]
  dsimp only
  split
  · exact ⟨rfl, rfl⟩
  · have against : (base.elim 0 fun line => (columns.map (offset * ·))[line]?.getD 0)
        = offset * base.elim 0 fun line => columns[line]?.getD 0 := by
      cases base with
      | none => rfl
      | some line =>
        show (columns.map (offset * ·))[line]?.getD 0 = offset * columns[line]?.getD 0
        rw [List.getElem?_map]
        cases columns[line]? with
        | none => rfl
        | some column => rfl
    rw [against, columnAt_mul]
    exact ⟨rfl, rfl⟩

/-- Lines that all begin in code are placed at multiplied columns from the top to the bottom. -/
lemma placeLines_scales {lines : List Line}
    (in_code : ∀ line ∈ lines, (script.contextAt line.firstNonblank).inCode = true)
    (columns : List Nat) :
    List.Forall₂ (PlacedLine.Scales offset) (script.placeLines 1 columns lines)
      (script.placeLines offset (columns.map (offset * ·)) lines) := by
  induction lines generalizing columns with
  | nil => exact .nil
  | cons line below ih =>
    have first := placeLine_scales offset (in_code line List.mem_cons_self) columns
    have more := ih (fun other mem => in_code other (List.mem_cons_of_mem _ mem))
      (columns ++ [(script.placeLine 1 columns line).column])
    rw [List.map_append, List.map_singleton, ← first.column] at more
    exact .cons first more

end

section
variable {offset : Nat} {placed placed' : List PlacedLine}
  (scales : List.Forall₂ (PlacedLine.Scales offset) placed placed')
include scales

/-- Columns are multiplied by the offset. -/
lemma columns_scale :
    placed'.map PlacedLine.column = (placed.map PlacedLine.column).map (offset * ·) := by
  induction scales with
  | nil => rfl
  | cons first _ ih => exact congrArg₂ List.cons first.column ih

/-- What can be written with more columns per level can be written with one. -/
lemma layoutFault_scales (some_offset : 0 < offset)
    (no_fault : Script.layoutFault? placed' = none) : Script.layoutFault? placed = none := by
  rw [layoutFault?_eq_none] at no_fault ⊢
  induction scales with
  | nil => exact List.forall_mem_nil _
  | @cons line line' _ _ first _ ih =>
    obtain ⟨short, below⟩ := List.forall_mem_cons.1 no_fault
    rw [first.indent] at short
    have bound := Nat.le_mul_of_pos_left line.indent some_offset
    exact List.forall_mem_cons.2 ⟨Nat.lt_of_le_of_lt bound short, ih below⟩

end

/-- If every line begins in code, the lines of a text that is indented anew stand at the columns that
they have with one column per level, multiplied by the offset. -/
theorem indentation_scales {text : List Char}
    (in_code : ∀ line ∈ (Script.ofText text).lines,
      ((Script.ofText text).contextAt line.firstNonblank).inCode = true) (offset : Nat) :
    (Script.ofText ((Script.ofText text).reindent offset)).lines.map Line.indentation
        = (Script.ofText ((Script.ofText text).reindent 1)).lines.map (offset * ·.indentation) ∧
      ∀ result, (Script.ofText text).tryReindent offset = .ok result → 0 < offset →
        ∃ single, (Script.ofText text).tryReindent 1 = .ok single ∧
          (Script.ofText result).lines.map Line.indentation
            = (Script.ofText single).lines.map (offset * ·.indentation) := by
  have scales : List.Forall₂ (PlacedLine.Scales offset) ((Script.ofText text).layout 1)
      ((Script.ofText text).layout offset) := placeLines_scales offset in_code []
  have columns : (Script.ofText ((Script.ofText text).reindent offset)).lines.map Line.indentation
      = (Script.ofText ((Script.ofText text).reindent 1)).lines.map (offset * ·.indentation) := by
    rw [indentations_reindent, columns_scale scales, ← indentations_reindent, List.map_map]
    rfl
  refine ⟨columns, ?_⟩
  intro result written some_offset
  obtain ⟨no_fault, rfl⟩ := tryReindent_eq_ok.1 written
  exact ⟨_, tryReindent_eq_ok.2 ⟨layoutFault_scales scales some_offset no_fault, rfl⟩, columns⟩

/-- A text with stray closers, a group over several lines that is closed once too often, a comment at
the head of a line and blocks that are not closed. -/
def unevenText : List Char :=
  "Loop\n\tIf (a\n(Do\n; b\n))) EndIf\r\n \nCase\n  )c\n'd' Select\ne".toList

/-- All lines begin in code, so three columns a level is three times one. -/
theorem indentation_of_unevenText :
    (∀ line ∈ (Script.ofText unevenText).lines,
      ((Script.ofText unevenText).contextAt line.firstNonblank).inCode = true) ∧
    (Script.ofText ((Script.ofText unevenText).reindent 3)).lines.map Line.indentation
      = (Script.ofText ((Script.ofText unevenText).reindent 1)).lines.map (3 * ·.indentation) :=
  have in_code : ∀ line ∈ (Script.ofText unevenText).lines,
      ((Script.ofText unevenText).contextAt line.firstNonblank).inCode = true :=
    List.all_eq_true.1 (by decide +kernel)
  ⟨in_code, (indentation_scales in_code 3).1⟩

end KixScript

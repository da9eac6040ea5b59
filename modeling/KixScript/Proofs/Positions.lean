import KixScript.Proofs.Contents
import Mathlib.Data.Set.Defs

/-!
# Lines and columns

An offset has as many lines above it as there are line feeds before it, and its column counts from the
last of them (`position_of_row`), so a later offset has a later place (`position_before`), and every
offset lies on the line that it is said to lie on (`exists_line_of_offset`). The way back adds the text
above the line and the column (`offsetOf_position`). Characters without a line end stand on one line
(`exists_line_of_run`).
-/

namespace KixScript

/-- Whether one place comes before another. -/
def Position.Before (place place' : Position) : Prop :=
  place.line < place'.line ∨ place.line = place'.line ∧ place.column < place'.column

/-- The places of a script. The end of a row is one. -/
def Script.places (script : Script) : Set Position :=
  {place | ∃ line, script.lines[place.line]? = some line ∧ place.column ≤ line.row.length}

/-- The offset of a place: behind the text above its line, as far as its column says. -/
def offsetOf (text : List Char) (place : Position) : Nat :=
  (textAbove text place.line).length + place.column

/-- Some characters stand on a line, from a column on. -/
def Line.Holds (line : Line) (column : Nat) (run : List Char) : Prop :=
  ∃ before behind, line.text = before ++ (run ++ behind) ∧ before.length = column

/-! ## From offsets to places -/

/-- An offset on a row behind whole lines. -/
lemma position_of_row {upper : List Char} (whole : WholeLines upper) {row : List Char}
    (no_newline : '\n' ∉ row) (rest : List Char) :
    (Script.ofText (upper ++ (row ++ rest))).position (upper.length + row.length)
      = ⟨upper.count '\n', row.length⟩ := by
  have bound : upper.length + row.length ≤ (upper ++ (row ++ rest)).length := by
    rw [List.length_append, List.length_append]
    omega
  have line : (Script.ofText (upper ++ (row ++ rest))).lineOf (upper.length + row.length : Nat)
      = upper.count '\n' := by
    rw [lineOf_eq_count _ bound, ← List.append_assoc, ← List.length_append, List.take_left,
      List.count_append, List.count_eq_zero.2 no_newline, Nat.add_zero]
  rw [Script.position, line, lineStart_of_whole whole, Nat.add_sub_cancel_left]

/-- A text is whole lines and a row behind them. -/
lemma exists_whole_row (text : List Char) :
    ∃ upper row, text = upper ++ row ∧ WholeLines upper ∧ '\n' ∉ row := by
  obtain ⟨above, row, split, same⟩ := exists_last_row text
  refine ⟨above.flatMap (· ++ ['\n']), row, same, wholeLines_flatMap above, ?_⟩
  apply no_newline_of_mem_rows
  rw [split]
  exact List.mem_append_right _ List.mem_cons_self

/-- The whole lines and the beginning of a row before an offset. -/
lemma exists_row {text : List Char} {offset : Nat} (bound : offset ≤ text.length) :
    ∃ upper row rest, text = upper ++ (row ++ rest) ∧ offset = upper.length + row.length ∧
      WholeLines upper ∧ '\n' ∉ row := by
  obtain ⟨upper, row, same, whole, no_newline⟩ := exists_whole_row (text.take offset)
  refine ⟨upper, row, text.drop offset, ?_, ?_, whole, no_newline⟩
  · rw [← List.append_assoc, ← same, List.take_append_drop]
  · rw [← List.length_append, ← same, List.length_take_of_le bound]

/-- The text above the line behind whole lines is those lines. -/
lemma textAbove_whole {upper : List Char} (whole : WholeLines upper) (rest : List Char) :
    textAbove (upper ++ rest) (upper.count '\n') = upper := by
  obtain ⟨above, no_newline, same, length⟩ := whole.exists_rows
  rw [← length, textAbove, same, rows_flatMap_append no_newline, List.take_left]

/-- The line behind whole lines. -/
lemma lines_whole {upper : List Char} (whole : WholeLines upper) {rest row : List Char}
    {more : List (List Char)} (first : rows rest = row :: more) :
    (Script.ofText (upper ++ rest)).lines[upper.count '\n']? = some ⟨upper.length, row⟩ := by
  have above := textAbove_whole whole rest
  obtain ⟨others, no_newline, same, length⟩ := whole.exists_rows
  have here : (rows (upper ++ rest))[upper.count '\n']? = some row := by
    rw [← length, same, rows_flatMap_append no_newline, first,
      List.getElem?_append_right (Nat.le_refl _), Nat.sub_self]
    rfl
  rw [Script.ofText, getElem?_linesFrom, ← textAbove, above, here, Nat.zero_add]
  rfl

/-- A later offset has a later place. -/
lemma position_before {text : List Char} {offset offset' : Nat} (order : offset < offset')
    (bound : offset' ≤ text.length) :
    ((Script.ofText text).position offset).Before ((Script.ofText text).position offset') := by
  obtain ⟨upper, row, rest, rfl, rfl, whole, no_newline⟩ := exists_row bound
  rw [position_of_row whole no_newline]
  rcases Nat.lt_or_ge offset upper.length with above | on_row
  · -- The line feed that ends the lines above does not stand before the earlier offset.
    left
    have some_upper : upper ≠ [] := List.ne_nil_of_length_pos (Nat.zero_lt_of_lt above)
    obtain ⟨front, c, concat⟩ := (List.eq_nil_or_concat upper).resolve_left some_upper
    rw [List.concat_eq_append] at concat
    obtain rfl : c = '\n' := whole c (by rw [concat, List.getLast?_concat]; rfl)
    have within : offset ≤ front.length := by
      rw [concat, List.length_append, List.length_singleton] at above
      omega
    show (Script.ofText (upper ++ (row ++ rest))).lineOf offset < upper.count '\n'
    rw [lineOf_eq_count _ (Nat.le_of_lt (Nat.lt_of_lt_of_le order bound)),
      List.take_append_of_le_length (Nat.le_of_lt above), concat, List.take_append_of_le_length within,
      List.count_append, List.count_singleton_self]
    exact Nat.lt_succ_of_le ((List.take_sublist offset front).count_le '\n')
  · right
    obtain ⟨column, rfl⟩ := Nat.exists_eq_add_of_le on_row
    have length : (row.take column).length = column := List.length_take_of_le (by omega)
    have no_newline' : '\n' ∉ row.take column := fun mem => no_newline (List.mem_of_mem_take mem)
    have place := position_of_row whole no_newline' (row.drop column ++ rest)
    rw [← List.append_assoc (row.take column), List.take_append_drop, length] at place
    rw [place]
    exact ⟨rfl, by dsimp only; omega⟩

/-- Every offset lies on its line. -/
lemma exists_line_of_offset {text : List Char} {offset : Nat} (bound : offset ≤ text.length) :
    ∃ line, (Script.ofText text).lines[((Script.ofText text).position offset).line]? = some line ∧
      ((Script.ofText text).position offset).column ≤ line.row.length ∧
      line.start + ((Script.ofText text).position offset).column = offset := by
  obtain ⟨upper, row, rest, rfl, rfl, whole, no_newline⟩ := exists_row bound
  obtain ⟨first, more, first_row⟩ := exists_rows rest
  rw [position_of_row whole no_newline]
  refine ⟨_, lines_whole whole (rows_append no_newline first_row), ?_, rfl⟩
  rw [List.length_append]
  exact Nat.le_add_right _ _

/-- Every offset of a text has a place in it. -/
lemma position_mem_places {text : List Char} {offset : Nat} (bound : offset ≤ text.length) :
    (Script.ofText text).position offset ∈ (Script.ofText text).places := by
  obtain ⟨line, found, column, _⟩ := exists_line_of_offset bound
  exact ⟨line, found, column⟩

/-! ## From places to offsets -/

/-- The offset of the place of an offset is that offset. -/
lemma offsetOf_position {text : List Char} {offset : Nat} (bound : offset ≤ text.length) :
    offsetOf text ((Script.ofText text).position offset) = offset := by
  obtain ⟨upper, row, rest, rfl, rfl, whole, no_newline⟩ := exists_row bound
  rw [position_of_row whole no_newline, offsetOf, textAbove_whole whole]

/-! ## Characters on one line -/

/-- Only a carriage return at the end is left out. -/
lemma withoutReturn_append {front : List Char} (no_return : front.getLast? ≠ some '\r')
    (behind : List Char) : withoutReturn (front ++ behind) = front ++ withoutReturn behind := by
  rcases List.eq_nil_or_concat behind with rfl | ⟨more, c, rfl⟩
  · rw [List.append_nil, withoutReturn, if_neg no_return]
    exact (List.append_nil front).symm
  · rw [List.concat_eq_append, withoutReturn, withoutReturn, ← List.append_assoc,
      List.getLast?_concat, List.getLast?_concat, List.dropLast_concat, List.dropLast_concat]
    split
    · rfl
    · exact List.append_assoc _ _ _

/-- Characters without a line end stand on the line that the first of them is on. -/
lemma exists_line_of_run {text front run back : List Char} (parts : text = front ++ (run ++ back))
    (some_run : run ≠ []) (no_end : ∀ c ∈ run, isLineEnd c = false) :
    ∃ line, (Script.ofText text).lines[((Script.ofText text).position front.length).line]? = some line ∧
      line.start + ((Script.ofText text).position front.length).column = front.length ∧
      line.Holds ((Script.ofText text).position front.length).column run := by
  obtain ⟨upper, row, split, whole, no_newline⟩ := exists_whole_row front
  have no_newline' : '\n' ∉ row ++ run := by
    intro mem
    rcases List.mem_append.1 mem with mem | mem
    · exact no_newline mem
    · cases no_end '\n' mem
  have no_return : (row ++ run).getLast? ≠ some '\r' := by
    obtain ⟨more, c, concat⟩ := (List.eq_nil_or_concat run).resolve_left some_run
    rw [List.concat_eq_append] at concat
    rw [concat, ← List.append_assoc, List.getLast?_concat]
    intro returned
    have last := no_end c (concat ▸ List.mem_append_right more List.mem_cons_self)
    rw [Option.some.inj returned] at last
    cases last
  obtain ⟨first, more, first_row⟩ := exists_rows back
  have here := lines_whole whole (rows_append no_newline' first_row)
  have place := position_of_row whole no_newline (run ++ back)
  rw [parts, split, List.append_assoc, List.length_append, place]
  rw [List.append_assoc row] at here
  refine ⟨_, here, rfl, row, withoutReturn first, ?_, rfl⟩
  rw [Line.text, withoutReturn_append no_return, List.append_assoc]

/-- A run on a line ends on it. -/
lemma Line.Holds.length_le {line : Line} {column : Nat} {run : List Char}
    (holds : line.Holds column run) : column + run.length ≤ line.text.length := by
  obtain ⟨before, behind, same, length⟩ := holds
  rw [same, List.length_append, List.length_append, length]
  omega

end KixScript

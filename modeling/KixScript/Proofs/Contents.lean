import KixScript.Layout
import KixScript.Proofs.Rows
import Mathlib.Data.List.Forall2

/-!
# What indenting keeps

Indenting a script anew gives each line that begins in code other leading blanks and keeps all else
(`Relaid`), with one exception: a carriage return at the end of the text is lost
(`reindent_contents`).
-/

namespace KixScript

namespace Line

/-- The carriage return at the end of a line, if there is one. -/
def ending (line : Line) : List Char :=
  line.row.drop line.text.length

/-- A row is the text of its line, with a carriage return behind it or without. -/
lemma text_ending_cases (line : Line) :
    line.row = line.text ++ ['\r'] ∧ line.ending = ['\r'] ∨
      line.row.getLast? ≠ some '\r' ∧ line.row = line.text ∧ line.ending = [] := by
  by_cases returned : line.row.getLast? = some '\r'
  · have text : line.text = line.row.dropLast := if_pos returned
    have split : line.row = line.text ++ ['\r'] := by
      rw [text]
      exact (List.dropLast_append_getLast? '\r' returned).symm
    refine .inl ⟨split, ?_⟩
    rw [ending, split, List.drop_left]
  · have text : line.text = line.row := if_neg returned
    refine .inr ⟨returned, text.symm, ?_⟩
    rw [ending, text, List.drop_length]

/-- The text of a line and its ending are its row. -/
lemma text_append_ending (line : Line) : line.text ++ line.ending = line.row := by
  rcases line.text_ending_cases with ⟨split, ending⟩ | ⟨_, split, ending⟩
  · rw [ending, split]
  · rw [ending, List.append_nil, split]

/-- The text of a line is its blanks and its body. -/
lemma blanks_append_body (line : Line) : line.blanks ++ line.body = line.text :=
  List.takeWhile_append_dropWhile

/-- The blanks of a line are those of its row. -/
lemma takeWhile_row (line : Line) : line.row.takeWhile isBlank = line.blanks := by
  rcases line.text_ending_cases with ⟨split, _⟩ | ⟨_, split, _⟩
  · rw [split, List.takeWhile_append]
    split
    -- A row of blanks alone ends where its carriage return comes, which is no blank.
    · rename_i all_blank
      rw [blanks, (List.takeWhile_prefix isBlank).eq_of_length all_blank]
      exact List.append_nil _
    · rfl
  · rw [split]
    rfl

/-- Behind its blanks a row has the body and the ending of its line. -/
lemma dropWhile_row (line : Line) : line.row.dropWhile isBlank = line.body ++ line.ending := by
  rcases line.text_ending_cases with ⟨split, ending⟩ | ⟨_, split, ending⟩
  · rw [ending, split, List.dropWhile_append]
    split
    · rename_i nothing
      rw [body, List.isEmpty_iff.1 nothing]
      rfl
    · rfl
  · rw [ending, split, List.append_nil]
    rfl

end Line

/-- A row keeps the contents of a line: where the first character that is not blank is in code, the
blanks before it are replaced by spaces, and elsewhere the row is the same. -/
def Relaid (script : Script) (line : Line) (row : List Char) : Prop :=
  if (script.contextAt (line.start + (line.row.takeWhile isBlank).length : Nat)).inCode then
    ∃ count, row = List.replicate count ' ' ++ line.row.dropWhile isBlank
  else row = line.row

/-- A text keeps the contents of every line of another one. -/
structure SameContents (text result : List Char) : Prop where
  newlines : result.count '\n' = text.count '\n'
  relaid : List.Forall₂ (Relaid (Script.ofText text)) (Script.ofText text).lines (rows result)

/-- A line that begins in code is indented. -/
lemma planLine_of_inCode {script : Script} {line : Line}
    (in_code : (script.contextAt line.firstNonblank).inCode = true) :
    ∃ base levels, script.planLine line = .indent base levels := by
  rw [Script.planLine, Script.plan, if_pos in_code]
  cases script.alignment line.firstNonblank with
  | none => exact ⟨_, _, rfl⟩
  | some found => exact ⟨_, _, rfl⟩

/-- A line that begins in a comment or string is kept. -/
lemma planLine_of_not_inCode {script : Script} {line : Line}
    (not_in_code : ¬ (script.contextAt line.firstNonblank).inCode = true) :
    script.planLine line = .keep := by
  rw [Script.planLine, Script.plan, if_neg not_in_code]

/-- A line that is placed keeps its contents. -/
lemma relaid_placeLine (script : Script) (offset : Nat) (columns : List Nat) (line : Line) :
    Relaid script line ((script.placeLine offset columns line).text ++ line.ending) := by
  rw [Relaid, line.takeWhile_row, line.dropWhile_row, ← Line.firstNonblank]
  split
  · rename_i in_code
    obtain ⟨base, levels, plan⟩ := planLine_of_inCode in_code
    rw [Script.placeLine, plan]
    dsimp only
    split
    · rename_i no_body
      refine ⟨0, ?_⟩
      rw [List.isEmpty_iff.1 no_body]
      rfl
    · exact ⟨_, List.append_assoc _ _ _⟩
  · rename_i not_in_code
    rw [Script.placeLine, planLine_of_not_inCode not_in_code]
    exact line.text_append_ending

/-- An empty line stays empty, wherever it stands. -/
lemma placeLine_nil (script : Script) (offset : Nat) (columns : List Nat) (start : Nat) :
    script.placeLine offset columns ⟨start, []⟩ = ⟨0, 0, []⟩ := by
  rw [Script.placeLine]
  cases script.planLine ⟨start, []⟩ with
  | keep => rfl
  | indent base levels => rfl

/-- As many lines are placed as there are. -/
lemma length_placeLines (script : Script) (offset : Nat) (columns : List Nat) (lines : List Line) :
    (script.placeLines offset columns lines).length = lines.length := by
  induction lines generalizing columns with
  | nil => rfl
  | cons line below ih => rw [Script.placeLines, List.length_cons, List.length_cons, ih]

/-- The lines below are placed against the columns of those above. -/
lemma placeLines_append (script : Script) (offset : Nat) (columns : List Nat)
    (above below : List Line) :
    script.placeLines offset columns (above ++ below)
      = script.placeLines offset columns above
        ++ script.placeLines offset
            (columns ++ (script.placeLines offset columns above).map PlacedLine.column) below := by
  induction above generalizing columns with
  | nil => rw [List.nil_append, Script.placeLines, List.map_nil, List.append_nil, List.nil_append]
  | cons line above ih =>
    rw [List.cons_append, Script.placeLines, Script.placeLines, ih, List.map_cons, List.cons_append,
      List.append_assoc, List.singleton_append]

/-- A layout has as many lines as the script. -/
lemma length_layout (script : Script) (offset : Nat) :
    (script.layout offset).length = script.lines.length :=
  length_placeLines script offset [] script.lines

/-- Each line is placed against the columns of the lines above it. -/
lemma getElem?_placeLines (script : Script) (offset : Nat) (columns : List Nat) (lines : List Line)
    (number : Nat) :
    (script.placeLines offset columns lines)[number]?
      = lines[number]?.map (script.placeLine offset
          (columns ++ ((script.placeLines offset columns lines).take number).map
            PlacedLine.column)) := by
  induction lines generalizing columns number with
  | nil => rfl
  | cons line below ih =>
    cases number with
    | zero =>
      rw [List.take_zero, List.map_nil, List.append_nil]
      rfl
    | succ number =>
      rw [Script.placeLines, List.getElem?_cons_succ, ih, List.getElem?_cons_succ,
        List.take_succ_cons, List.map_cons, List.append_assoc, List.singleton_append]

/-- The rows of placed lines, each with the ending of the line that it replaces. -/
def placedRows (lines : List Line) (placed : List PlacedLine) : List (List Char) :=
  List.zipWith (fun line placed => placed.text ++ line.ending) lines placed

/-- Lines that are placed keep their contents. -/
lemma relaid_placeLines (script : Script) (offset : Nat) (columns : List Nat) (lines : List Line) :
    List.Forall₂ (Relaid script) lines
      (placedRows lines (script.placeLines offset columns lines)) := by
  induction lines generalizing columns with
  | nil => exact .nil
  | cons line below ih => exact .cons (relaid_placeLine script offset columns line) (ih _)

/-- No line feed gets into a row. -/
lemma Relaid.no_newline {script : Script} {line : Line} {row : List Char}
    (relaid : Relaid script line row) (no_newline : '\n' ∉ line.row) : '\n' ∉ row := by
  rw [Relaid] at relaid
  split at relaid
  · obtain ⟨count, rfl⟩ := relaid
    intro mem
    rcases List.mem_append.1 mem with mem | mem
    · exact absurd (List.eq_of_mem_replicate mem) (by decide)
    · exact no_newline (List.dropWhile_sublist _ |>.mem mem)
  · rwa [relaid]

/-- No line feed gets into any row. -/
lemma no_newline_of_forall₂_relaid {script : Script} {lines : List Line} {all : List (List Char)}
    (relaid : List.Forall₂ (Relaid script) lines all) (no_newline : ∀ line ∈ lines, '\n' ∉ line.row) :
    ∀ row ∈ all, '\n' ∉ row := by
  induction relaid with
  | nil => exact nofun
  | cons first _ ih =>
    intro row mem
    rcases List.mem_cons.1 mem with rfl | mem
    · exact first.no_newline (no_newline _ List.mem_cons_self)
    · exact ih (fun line here => no_newline line (List.mem_cons_of_mem _ here)) row mem

/-- No line has a line feed in its row. -/
lemma no_newline_of_mem_lines {text : List Char} {line : Line}
    (mem : line ∈ (Script.ofText text).lines) : '\n' ∉ line.row := by
  apply no_newline_of_mem_rows
  rw [← row_of_linesFrom 0 (rows text)]
  exact List.mem_map_of_mem mem

/-- Every script has a line. -/
lemma lines_ne_nil (text : List Char) : (Script.ofText text).lines ≠ [] := by
  obtain ⟨row, more, split⟩ := exists_rows text
  rw [Script.ofText, split]
  exact List.cons_ne_nil _ _

/-- Rows that keep the contents of their lines make a text that keeps its contents. -/
lemma sameContents_unrows {text : List Char} {all : List (List Char)}
    (relaid : List.Forall₂ (Relaid (Script.ofText text)) (Script.ofText text).lines all) :
    SameContents text (unrows all) := by
  have no_newline := no_newline_of_forall₂_relaid relaid fun _ => no_newline_of_mem_lines
  have some_row : all ≠ [] := by
    rintro rfl
    exact lines_ne_nil text (List.forall₂_nil_right_iff.1 relaid)
  have split : rows (unrows all) = all := rows_unrows some_row no_newline
  refine ⟨?_, by rwa [split]⟩
  have length := relaid.length_eq
  rw [← split, length_rows, ← List.length_map Line.row, Script.ofText, row_of_linesFrom,
    length_rows] at length
  exact (Nat.succ.inj length).symm

/-- The carriage return at the end of the last line. -/
def lastEnding (lines : List Line) : List Char :=
  (lines.getLast?.map Line.ending).getD []

/-- Writing placed lines joins their rows, but for the ending of the last one. -/
lemma writeLines_append_lastEnding {lines : List Line} {placed : List PlacedLine}
    (length : placed.length = lines.length) :
    writeLines lines placed ++ lastEnding lines = unrows (placedRows lines placed) := by
  induction lines generalizing placed with
  | nil => cases placed <;> rfl
  | cons line below ih =>
    obtain ⟨first, rest, rfl⟩ := List.exists_cons_of_length_eq_add_one length
    have length' := Nat.succ.inj length
    cases below with
    | nil =>
      obtain rfl : rest = [] := List.length_eq_zero_iff.1 length'
      rfl
    | cons next below =>
      obtain ⟨second, rest, rfl⟩ := List.exists_cons_of_length_eq_add_one length'
      have last : lastEnding (line :: next :: below) = lastEnding (next :: below) := by
        rw [lastEnding, lastEnding, List.getLast?_cons_cons]
      have some_row : placedRows (next :: below) (second :: rest) ≠ [] := List.cons_ne_nil _ _
      have split : placedRows (line :: next :: below) (first :: second :: rest)
          = (first.text ++ line.ending) :: placedRows (next :: below) (second :: rest) := rfl
      rw [split, unrows_cons some_row, ← ih length', last, writeLines, Line.terminator,
        ← Line.ending, List.append_assoc, List.append_assoc, List.append_assoc, List.append_assoc,
        List.singleton_append]
      exact nofun

/-- The carriage return that is lost when a text is indented anew. -/
def lostReturn (text : List Char) : List Char :=
  if text.getLast? = some '\r' then ['\r'] else []

/-- The last line stands behind a line feed or at the start. -/
lemma exists_last_line (text : List Char) :
    ∃ above line, text = above ++ line.row ∧ WholeLines above ∧
      (Script.ofText text).lines.getLast? = some line := by
  obtain ⟨above, row, split, same⟩ := exists_last_row text
  refine ⟨above.flatMap (· ++ ['\n']), ⟨0 + (above.flatMap (· ++ ['\n'])).length, row⟩, same,
    wholeLines_flatMap above, ?_⟩
  rw [Script.ofText, split, linesFrom_append, linesFrom, linesFrom, List.getLast?_concat]

/-- A carriage return at the end of a text is one at the end of its last row. -/
lemma WholeLines.getLast?_append {above : List Char} (whole : WholeLines above) (row : List Char) :
    (above ++ row).getLast? = some '\r' ↔ row.getLast? = some '\r' := by
  rw [List.getLast?_append]
  cases row.getLast? with
  | some c => rfl
  | none =>
    refine ⟨fun returned => ?_, nofun⟩
    exact absurd (whole '\r' returned) (by decide)

/-- What ends the last line is the carriage return that is lost. -/
lemma lastEnding_lines (text : List Char) :
    lastEnding (Script.ofText text).lines = lostReturn text := by
  obtain ⟨above, line, same, whole, last⟩ := exists_last_line text
  rw [lastEnding, last, Option.map_some, Option.getD_some, lostReturn, same]
  rcases line.text_ending_cases with ⟨returned, ending⟩ | ⟨not_returned, _, ending⟩
  · rw [ending, if_pos]
    rw [whole.getLast?_append, returned, List.getLast?_concat]
  · rw [ending, if_neg]
    rwa [whole.getLast?_append]

/-- With the lost carriage return, a text that is indented anew has the same contents. -/
lemma sameContents_reindent (text : List Char) (offset : Nat) :
    SameContents text ((Script.ofText text).reindent offset ++ lostReturn text) := by
  rw [Script.reindent, ← lastEnding_lines, writeLines_append_lastEnding (length_layout _ _)]
  exact sameContents_unrows (relaid_placeLines _ _ _ _)

/-- A row keeps its carriage returns. -/
lemma Relaid.count_return {script : Script} {line : Line} {row : List Char}
    (relaid : Relaid script line row) : row.count '\r' = line.row.count '\r' := by
  rw [Relaid] at relaid
  split at relaid
  · obtain ⟨count, rfl⟩ := relaid
    have no_return : (line.row.takeWhile isBlank).count '\r' = 0 := by
      rw [List.count_eq_zero]
      intro mem
      exact absurd (List.mem_takeWhile_imp mem) (by decide)
    have no_return' : (List.replicate count ' ').count '\r' = 0 := by
      rw [List.count_eq_zero]
      intro mem
      exact absurd (List.eq_of_mem_replicate mem) (by decide)
    rw [List.count_append, no_return', ← no_return, ← List.count_append,
      List.takeWhile_append_dropWhile]
  · rw [relaid]

/-- A text that keeps its contents keeps its carriage returns. -/
lemma SameContents.count_return {text result : List Char} (same : SameContents text result) :
    result.count '\r' = text.count '\r' := by
  have counts : ∀ {lines : List Line} {all : List (List Char)},
      List.Forall₂ (Relaid (Script.ofText text)) lines all →
      all.flatten.count '\r' = (lines.map Line.row).flatten.count '\r' := by
    intro lines all relaid
    induction relaid with
    | nil => rfl
    | cons first _ ih =>
      rw [List.flatten_cons, List.map_cons, List.flatten_cons, List.count_append, List.count_append,
        first.count_return, ih]
  rw [← unrows_rows result, ← unrows_rows text, count_unrows (by decide), count_unrows (by decide),
    counts same.relaid, Script.ofText, row_of_linesFrom]

/-- Indenting a text anew keeps its contents if and only if it does not end in a carriage return, and
a carriage return at the end is all that can be lost. -/
theorem reindent_contents (text : List Char) (offset : Nat) :
    (SameContents text ((Script.ofText text).reindent offset) ↔ text.getLast? ≠ some '\r') ∧
      SameContents text ((Script.ofText text).reindent offset ++ lostReturn text) := by
  have same := sameContents_reindent text offset
  refine ⟨⟨?_, ?_⟩, same⟩
  · intro kept returned
    have count := same.count_return
    rw [lostReturn, if_pos returned, List.count_append, kept.count_return,
      List.count_singleton_self] at count
    omega
  · intro not_returned
    rwa [lostReturn, if_neg not_returned, List.append_nil] at same

end KixScript

import KixScript.Script
import Mathlib.Data.List.TakeWhile
import Mathlib.Tactic.Common

/-!
# Rows and lines

Cutting a text into rows and joining rows are inverse to each other (`unrows_rows`, `rows_unrows`).
The number of the line that an offset lies on is the number of line feeds before it
(`lineOf_eq_count`), and a line begins behind the line feed before it (`lineStart_of_whole`), so a line
with the text above it and what comes behind it is the text (`exists_standsIn`).
-/

namespace KixScript

/-- The text that has the given rows. -/
def unrows : List (List Char) → List Char
  | [] => []
  | [row] => row
  | row :: next :: more => row ++ '\n' :: unrows (next :: more)

/-- A row is written before its line feed and the other rows. -/
lemma unrows_cons {more : List (List Char)} (some_row : more ≠ []) (row : List Char) :
    unrows (row :: more) = row ++ '\n' :: unrows more := by
  cases more with
  | nil => exact absurd rfl some_row
  | cons next more => rfl

/-- Every text has a row. -/
lemma rows_ne_nil (text : List Char) : rows text ≠ [] := by
  cases text with
  | nil => exact List.cons_ne_nil _ _
  | cons c rest =>
    rw [rows]
    split
    · exact List.cons_ne_nil _ _
    · cases rows rest <;> exact List.cons_ne_nil _ _

/-- A line feed ends an empty row. -/
lemma rows_newline (rest : List Char) : rows ('\n' :: rest) = [] :: rows rest := by
  rw [rows, if_pos rfl]

/-- Another character goes to the first row. -/
lemma rows_cons {c : Char} (inside : c ≠ '\n') {rest row : List Char} {more : List (List Char)}
    (first : rows rest = row :: more) : rows (c :: rest) = (c :: row) :: more := by
  rw [rows, if_neg inside, first]

/-- Every text has a first row. -/
lemma exists_rows (text : List Char) : ∃ row more, rows text = row :: more :=
  List.exists_cons_of_ne_nil (rows_ne_nil text)

/-- What has no line feed goes to the first row. -/
lemma rows_append {before : List Char} (no_newline : '\n' ∉ before) {rest row : List Char}
    {more : List (List Char)} (first : rows rest = row :: more) :
    rows (before ++ rest) = (before ++ row) :: more := by
  induction before with
  | nil => exact first
  | cons c before ih =>
    have inside : c ≠ '\n' := fun same => no_newline (same ▸ List.mem_cons_self)
    exact rows_cons inside (ih fun mem => no_newline (List.mem_cons_of_mem _ mem))

/-- A text without a line feed is one row. -/
lemma rows_of_no_newline {row : List Char} (no_newline : '\n' ∉ row) : rows row = [row] := by
  have append := @rows_append row no_newline [] [] [] rfl
  rwa [List.append_nil] at append

/-- A line feed separates the rows before it from those behind it. -/
lemma rows_append_newline (before behind : List Char) :
    rows (before ++ '\n' :: behind) = rows before ++ rows behind := by
  induction before with
  | nil => exact rows_newline behind
  | cons c before ih =>
    by_cases same : c = '\n'
    · rw [same, List.cons_append, rows_newline, rows_newline, ih, List.cons_append]
    · obtain ⟨row, more, first⟩ := exists_rows before
      rw [first, List.cons_append] at ih
      rw [List.cons_append, rows_cons same ih, rows_cons same first, List.cons_append]

/-- Rows that are each followed by a line feed are the first rows. -/
lemma rows_flatMap_append {above : List (List Char)} (no_newline : ∀ row ∈ above, '\n' ∉ row)
    (rest : List Char) : rows (above.flatMap (· ++ ['\n']) ++ rest) = above ++ rows rest := by
  induction above with
  | nil => rfl
  | cons row more ih =>
    rw [List.flatMap_cons, List.append_assoc, List.append_assoc, List.singleton_append,
      rows_append_newline, rows_of_no_newline (no_newline row List.mem_cons_self),
      ih fun row mem => no_newline row (List.mem_cons_of_mem _ mem)]
    rfl

/-- No row has a line feed in it. -/
lemma no_newline_of_mem_rows {text row : List Char} (mem : row ∈ rows text) : '\n' ∉ row := by
  induction text generalizing row with
  | nil =>
    obtain rfl := List.mem_singleton.1 mem
    exact List.not_mem_nil
  | cons c rest ih =>
    by_cases same : c = '\n'
    · rw [same, rows_newline] at mem
      rcases List.mem_cons.1 mem with rfl | mem
      · exact List.not_mem_nil
      · exact ih mem
    · obtain ⟨first, more, split⟩ := exists_rows rest
      rw [rows_cons same split] at mem
      rw [split] at ih
      rcases List.mem_cons.1 mem with rfl | mem
      · intro newline
        rcases List.mem_cons.1 newline with rfl | newline
        · exact same rfl
        · exact ih List.mem_cons_self newline
      · exact ih (List.mem_cons_of_mem _ mem)

/-- The rows of a text are written as the text. -/
lemma unrows_rows (text : List Char) : unrows (rows text) = text := by
  induction text with
  | nil => rfl
  | cons c rest ih =>
    by_cases same : c = '\n'
    · rw [same, rows_newline, unrows_cons (rows_ne_nil rest), ih, List.nil_append]
    · obtain ⟨row, more, split⟩ := exists_rows rest
      rw [rows_cons same split, ← ih, split]
      cases more <;> rfl

/-- Rows that are written are read back. -/
lemma rows_unrows {all : List (List Char)} (some_row : all ≠ [])
    (no_newline : ∀ row ∈ all, '\n' ∉ row) : rows (unrows all) = all := by
  induction all with
  | nil => exact absurd rfl some_row
  | cons row more ih =>
    have first := no_newline row List.mem_cons_self
    cases more with
    | nil => exact rows_of_no_newline first
    | cons next more =>
      rw [unrows, rows_append_newline, rows_of_no_newline first,
        ih (List.cons_ne_nil _ _) fun row mem => no_newline row (List.mem_cons_of_mem _ mem),
        List.singleton_append]

/-- Rows are written with line feeds before those below them. -/
lemma unrows_append {below : List (List Char)} (some_row : below ≠ [])
    (above : List (List Char)) :
    unrows (above ++ below) = above.flatMap (· ++ ['\n']) ++ unrows below := by
  induction above with
  | nil => rfl
  | cons first more ih =>
    rw [List.cons_append, unrows_cons (by simp [some_row]), ih, List.flatMap_cons, List.append_assoc,
      List.append_assoc, List.singleton_append]

/-- The front of the first row is written first. -/
lemma unrows_cons_append (front row : List Char) (all : List (List Char)) :
    unrows ((front ++ row) :: all) = front ++ unrows (row :: all) := by
  cases all with
  | nil => rfl
  | cons next all => rw [unrows, unrows, List.append_assoc]

/-- The rows hold every character but the line feeds. -/
lemma count_unrows {c : Char} (inside : c ≠ '\n') (all : List (List Char)) :
    (unrows all).count c = all.flatten.count c := by
  induction all with
  | nil => rfl
  | cons row more ih =>
    cases more with
    | nil => simp [unrows]
    | cons next more =>
      rw [unrows, List.count_append, List.count_cons_of_ne (Ne.symm inside), ih,
        @List.flatten_cons _ row, List.count_append]

/-- A text is whole rows and a last one. -/
lemma exists_last_row (text : List Char) :
    ∃ above row, rows text = above ++ [row] ∧ text = above.flatMap (· ++ ['\n']) ++ row := by
  rcases List.eq_nil_or_concat (rows text) with nothing | ⟨above, row, split⟩
  · exact absurd nothing (rows_ne_nil text)
  · rw [List.concat_eq_append] at split
    refine ⟨above, row, split, ?_⟩
    rw [show row = unrows [row] from rfl, ← unrows_append (List.cons_ne_nil _ _), ← split, unrows_rows]

/-- There is one row more than there are line feeds. -/
lemma length_rows (text : List Char) : (rows text).length = text.count '\n' + 1 := by
  induction text with
  | nil => rfl
  | cons c rest ih =>
    by_cases same : c = '\n'
    · rw [same, rows_newline, List.length_cons, ih, List.count_cons_self]
    · obtain ⟨row, more, split⟩ := exists_rows rest
      rw [rows_cons same split, List.length_cons, ← List.length_cons, ← split, ih,
        List.count_cons_of_ne same]

/-- The rows of the lines are those that they are made of. -/
lemma row_of_linesFrom (start : Nat) (all : List (List Char)) :
    (linesFrom start all).map Line.row = all := by
  induction all generalizing start with
  | nil => rfl
  | cons row more ih => rw [linesFrom, List.map_cons, ih]

/-- There are as many lines as rows. -/
lemma length_linesFrom (start : Nat) (all : List (List Char)) :
    (linesFrom start all).length = all.length := by
  rw [← List.length_map Line.row, row_of_linesFrom]

/-- The lines below start behind those above. -/
lemma linesFrom_append (start : Nat) (above below : List (List Char)) :
    linesFrom start (above ++ below)
      = linesFrom start above ++ linesFrom (start + (above.flatMap (· ++ ['\n'])).length) below := by
  induction above generalizing start with
  | nil => rfl
  | cons row more ih =>
    rw [List.cons_append, linesFrom, linesFrom, ih, List.flatMap_cons, List.length_append,
      List.length_append, List.length_singleton, List.cons_append, Nat.add_assoc, Nat.add_assoc,
      Nat.add_assoc, ← Nat.add_assoc row.length]

/-- A line starts behind the rows above it. -/
lemma exists_of_mem_linesFrom {start : Nat} {all : List (List Char)} {line : Line}
    (mem : line ∈ linesFrom start all) :
    ∃ above below, all = above ++ line.row :: below ∧
      line.start = start + (above.flatMap (· ++ ['\n'])).length := by
  induction all generalizing start with
  | nil => cases mem
  | cons row more ih =>
    rw [linesFrom] at mem
    rcases List.mem_cons.1 mem with rfl | mem
    · exact ⟨[], more, rfl, rfl⟩
    · obtain ⟨above, below, split, place⟩ := ih mem
      refine ⟨row :: above, below, by rw [split, List.cons_append], ?_⟩
      rw [place, List.flatMap_cons, List.length_append, List.length_append, List.length_singleton]
      omega

/-- No line starts before the first one. -/
lemma filter_linesFrom_nil {start place : Nat} (below : place < start) (all : List (List Char)) :
    (linesFrom start all).filter (fun line => line.start ≤ place) = [] := by
  rw [List.filter_eq_nil_iff]
  intro line mem
  obtain ⟨above, _, _, bound⟩ := exists_of_mem_linesFrom mem
  simp only [decide_eq_true_eq]
  omega

/-- As many lines begin up to an offset as there are line feeds before it, and one more. -/
lemma length_filter_linesFrom (start : Nat) {text : List Char} {place : Nat}
    (bound : place ≤ text.length) :
    ((linesFrom start (rows text)).filter fun line => line.start ≤ start + place).length
      = (text.take place).count '\n' + 1 := by
  induction text generalizing start place with
  | nil =>
    obtain rfl : place = 0 := Nat.le_zero.1 bound
    simp [rows, linesFrom]
  | cons c rest ih =>
    cases place with
    | zero =>
      obtain ⟨row, more, split⟩ := exists_rows (c :: rest)
      rw [split, linesFrom, List.filter_cons_of_pos (by simp), filter_linesFrom_nil (by omega)]
      rfl
    | succ place =>
      have ih := ih (start + 1) (Nat.le_of_succ_le_succ bound)
      rw [show start + 1 + place = start + (place + 1) from by omega] at ih
      rw [List.take_succ_cons]
      by_cases same : c = '\n'
      · rw [same, rows_newline, linesFrom, List.length_nil, Nat.add_zero,
          List.filter_cons_of_pos (by simp), List.length_cons, ih, List.count_cons_self]
      · obtain ⟨row, more, split⟩ := exists_rows rest
        rw [split, linesFrom, List.filter_cons_of_pos (by simp), List.length_cons] at ih
        rw [rows_cons same split, linesFrom, List.filter_cons_of_pos (by simp),
          List.length_cons, List.length_cons, List.count_cons_of_ne same, ← ih,
          show start + (row.length + 1) + 1 = start + 1 + row.length + 1 from by omega]

/-- The number of the line that an offset lies on is the number of line feeds before it. -/
lemma lineOf_eq_count (text : List Char) {offset : Nat} (bound : offset ≤ text.length) :
    (Script.ofText text).lineOf offset = (text.take offset).count '\n' := by
  have place : (Script.ofText text).clamp offset = offset := Nat.min_eq_left bound
  have length := length_filter_linesFrom 0 bound
  rw [Nat.zero_add] at length
  rw [Script.lineOf, place]
  exact Nat.sub_eq_of_eq_add length

/-- A text that ends with a line feed, or is empty. -/
def WholeLines (text : List Char) : Prop :=
  ∀ c ∈ text.getLast?, c = '\n'

/-- Rows with line feeds are whole lines. -/
lemma wholeLines_flatMap (above : List (List Char)) :
    WholeLines (above.flatMap (· ++ ['\n'])) := by
  intro c mem
  rcases List.eq_nil_or_concat above with rfl | ⟨upper, row, rfl⟩
  · cases mem
  · simpa using mem.symm

/-- A text that ends with whole lines is made of whole lines. -/
lemma WholeLines.append {behind : List Char} (whole : WholeLines behind) (some_text : behind ≠ [])
    (before : List Char) : WholeLines (before ++ behind) := by
  intro c mem
  apply whole
  obtain ⟨front, d, concat⟩ := (List.eq_nil_or_concat behind).resolve_left some_text
  rw [List.concat_eq_append] at concat
  rw [concat, ← List.append_assoc, List.getLast?_concat] at mem
  rwa [concat, List.getLast?_concat]

/-- Whole lines are rows with line feeds, as many as there are. -/
lemma WholeLines.exists_rows {text : List Char} (whole : WholeLines text) :
    ∃ above : List (List Char), (∀ row ∈ above, '\n' ∉ row) ∧ text = above.flatMap (· ++ ['\n']) ∧
      above.length = text.count '\n' := by
  obtain ⟨above, row, split, same⟩ := exists_last_row text
  have no_newline : ∀ other ∈ above ++ [row], '\n' ∉ other := by
    rw [← split]
    exact fun _ => no_newline_of_mem_rows
  have nothing : row = [] := by
    rcases List.eq_nil_or_concat row with rfl | ⟨front, c, rfl⟩
    · rfl
    rw [List.concat_eq_append] at same no_newline
    have last : c = '\n' := by
      apply whole
      rw [same, ← List.append_assoc, List.getLast?_concat]
      exact rfl
    have here := no_newline _ (List.mem_append_right above List.mem_cons_self)
    exact absurd (List.mem_append_right front (last ▸ List.mem_cons_self)) here
  refine ⟨above, fun other mem => no_newline other (List.mem_append_left _ mem), ?_, ?_⟩
  · rw [same, nothing, List.append_nil]
  · have length := length_rows text
    rw [split, List.length_append] at length
    exact Nat.succ.inj length

/-- The text above the line of a number. -/
def textAbove (text : List Char) (number : Nat) : List Char :=
  ((rows text).take number).flatMap (· ++ ['\n'])

/-- The text above the next line has the row of this one too. -/
lemma textAbove_succ {text row : List Char} {number : Nat} (here : (rows text)[number]? = some row) :
    textAbove text (number + 1) = textAbove text number ++ (row ++ ['\n']) := by
  rw [textAbove, textAbove, List.take_add_one, here, List.flatMap_append]
  exact congrArg _ (List.append_nil _)

/-- A line with a number starts behind the rows above. -/
lemma getElem?_linesFrom (start : Nat) (all : List (List Char)) (number : Nat) :
    (linesFrom start all)[number]?
      = all[number]?.map (Line.mk (start + ((all.take number).flatMap (· ++ ['\n'])).length)) := by
  induction all generalizing start number with
  | nil => rfl
  | cons row more ih =>
    cases number with
    | zero => rfl
    | succ number =>
      rw [linesFrom, List.getElem?_cons_succ, List.getElem?_cons_succ, ih, List.take_succ_cons,
        List.flatMap_cons, List.length_append, List.length_append, List.length_singleton,
        Nat.add_assoc, Nat.add_assoc, Nat.add_assoc]

/-- The line with a number has the row with that number. -/
lemma row_of_lines {text : List Char} {number : Nat} {line : Line}
    (found : (Script.ofText text).lines[number]? = some line) :
    (rows text)[number]? = some line.row := by
  rw [Script.ofText, getElem?_linesFrom] at found
  obtain ⟨row, here, rfl⟩ := Option.map_eq_some_iff.1 found
  exact here

/-- The number of a line is that of the line feeds above it. -/
lemma count_textAbove {text : List Char} {number : Nat} {line : Line}
    (found : (Script.ofText text).lines[number]? = some line) :
    (textAbove text number).count '\n' = number := by
  have bound := (List.getElem?_eq_some_iff.1 (row_of_lines found)).1
  have length := length_rows (textAbove text number ++ [])
  rw [textAbove, rows_flatMap_append fun _ mem => no_newline_of_mem_rows (List.mem_of_mem_take mem),
    List.length_append, List.length_take_of_le (Nat.le_of_lt bound), List.append_nil] at length
  exact (Nat.succ.inj length).symm

/-- The line behind whole lines begins there. -/
lemma lineStart_of_whole {above : List Char} (whole : WholeLines above) (rest : List Char) :
    (Script.ofText (above ++ rest)).lineStart (above.count '\n') = above.length := by
  obtain ⟨upper, no_newline, same, length⟩ := whole.exists_rows
  obtain ⟨row, more, first⟩ := exists_rows rest
  rw [← length, same, Script.lineStart, Script.ofText, rows_flatMap_append no_newline, first,
    linesFrom_append, List.getElem?_append_right (by rw [length_linesFrom]), length_linesFrom,
    Nat.sub_self, Nat.zero_add]
  rfl

/-! ## Lines in their text -/

/-- A line stands in a text below the lines `above`, with `rest` behind it. -/
structure Line.StandsIn (line : Line) (text above rest : List Char) : Prop where
  parts : text = above ++ (line.row ++ rest)
  start : line.start = above.length
  whole : WholeLines above
  ended : ∀ c ∈ rest.head?, c = '\n'

/-- Every line stands where its offset says: behind the text above it. -/
lemma exists_standsIn {text : List Char} {number : Nat} {line : Line}
    (found : (Script.ofText text).lines[number]? = some line) :
    ∃ rest, line.StandsIn text (textAbove text number) rest := by
  rw [Script.ofText, getElem?_linesFrom, Nat.zero_add, ← textAbove] at found
  obtain ⟨row, here, rfl⟩ := Option.map_eq_some_iff.1 found
  obtain ⟨bound, at_number⟩ := List.getElem?_eq_some_iff.1 here
  have whole := unrows_rows text
  rw [← List.take_append_drop number (rows text), List.drop_eq_getElem_cons bound, at_number,
    unrows_append (List.cons_ne_nil _ _), ← textAbove] at whole
  cases below : (rows text).drop (number + 1) with
  | nil =>
    rw [below] at whole
    refine ⟨[], ?_, rfl, wholeLines_flatMap _, fun c none => ?_⟩
    · rw [List.append_nil]
      exact whole.symm
    · cases none
  | cons next more =>
    rw [below] at whole
    refine ⟨'\n' :: unrows (next :: more), whole.symm, rfl, wholeLines_flatMap _, ?_⟩
    exact fun c mem => (Option.some.inj mem).symm

/-- Behind a line comes nothing, or a line feed. -/
lemma Line.StandsIn.rest_cases {line : Line} {text above rest : List Char}
    (stands : line.StandsIn text above rest) : rest = [] ∨ ∃ below, rest = '\n' :: below := by
  cases rest with
  | nil => exact .inl rfl
  | cons c below => exact .inr ⟨below, congrArg (· :: below) (stands.ended c rfl)⟩

end KixScript

import KixScript.Proofs.Canonical

/-!
# From the top to the bottom

What follows a line has no say in where it goes, so whole lines are indented before the rest is known
(`reindent_online`). A line is placed against the lines above it, which have their final columns by
then. So one can as well indent the lines one after the other and read the whole text anew each time
(`reindent_line_by_line`).
-/

namespace KixScript

/-! ## Nothing depends on what follows -/

/-- Placed lines that are not the last ones, with the ends of the lines that they replace. -/
def writeAbove (lines : List Line) (placed : List PlacedLine) : List Char :=
  (List.zipWith (fun line placed => placed.text ++ line.terminator) lines placed).flatten

/-- Lines above are written with their terminators. -/
lemma writeLines_append {above below : List Line} {placed rest : List PlacedLine}
    (length : placed.length = above.length) (some_line : below ≠ []) :
    writeLines (above ++ below) (placed ++ rest)
      = writeAbove above placed ++ writeLines below rest := by
  induction above generalizing placed with
  | nil =>
    obtain rfl := List.length_eq_zero_iff.1 length
    rfl
  | cons line above ih =>
    obtain ⟨first, placed, rfl⟩ := List.exists_cons_of_length_eq_add_one length
    rw [List.cons_append, List.cons_append, writeLines, ih (Nat.succ.inj length), writeAbove,
      writeAbove, List.zipWith_cons_cons, List.flatten_cons, List.append_assoc, List.append_assoc,
      List.append_assoc]
    intro nothing
    exact absurd (List.append_eq_nil_iff.1 nothing).2 some_line

section
variable {front : List Char} {upper : List (List Char)}
  (no_newline : ∀ row ∈ upper, '\n' ∉ row) (whole : front = upper.flatMap (· ++ ['\n']))
include no_newline whole

/-- Whole lines are the first ones, whatever follows. -/
lemma lines_append (rest : List Char) :
    (Script.ofText (front ++ rest)).lines
      = linesFrom 0 upper ++ linesFrom front.length (rows rest) := by
  rw [Script.ofText, whole, rows_flatMap_append no_newline, linesFrom_append, Nat.zero_add]

/-- The text above one of the whole lines is made of the rows above it. -/
lemma textAbove_append {number : Nat} (bound : number ≤ upper.length) (rest : List Char) :
    textAbove (front ++ rest) number = (upper.take number).flatMap (· ++ ['\n']) := by
  rw [textAbove, whole, rows_flatMap_append no_newline, List.take_append_of_le_length bound]

/-- Whole lines are placed alike, whatever follows them. -/
lemma placedAlike_append (rest rest' : List Char) :
    List.Forall₂ (PlacedAlike (Script.ofText (front ++ rest)) (Script.ofText (front ++ rest')))
      (linesFrom 0 upper) (linesFrom 0 upper) := by
  rw [List.forall₂_same]
  intro line mem
  obtain ⟨number, bound, rfl⟩ := List.mem_iff_getElem.1 mem
  have found : ∀ rest, (Script.ofText (front ++ rest)).lines[number]?
      = some (linesFrom 0 upper)[number] := by
    intro rest
    rw [lines_append no_newline whole, List.getElem?_append_left bound,
      List.getElem?_eq_getElem bound]
  obtain ⟨_, stands⟩ := exists_standsIn (found rest)
  obtain ⟨_, stands'⟩ := exists_standsIn (found rest')
  rw [length_linesFrom] at bound
  rw [textAbove_append no_newline whole (Nat.le_of_lt bound)] at stands stands'
  -- The same text stands above the line, so nothing else is known or pending there.
  obtain ⟨before, pending, resumes⟩ := exists_resumes stands.whole
  exact ⟨.inl rfl, planLine_congr stands stands' resumes resumes .rfl rfl rfl⟩

/-- The layout of whole lines ends with an empty one. -/
lemma layout_whole (offset : Nat) :
    (Script.ofText front).layout offset
      = (Script.ofText front).placeLines offset [] (linesFrom 0 upper) ++ [⟨0, 0, []⟩] := by
  have lines := lines_append no_newline whole []
  rw [List.append_nil] at lines
  rw [Script.layout, lines, placeLines_append]
  exact congrArg (_ ++ [·]) (placeLine_nil _ _ _ _)

/-- The layout of whole lines comes first, whatever follows. -/
lemma layout_append (rest : List Char) (offset : Nat) :
    ∃ below, (Script.ofText (front ++ rest)).layout offset
      = (Script.ofText front).placeLines offset [] (linesFrom 0 upper) ++ below := by
  have alike := placedAlike_append no_newline whole rest []
  rw [List.append_nil] at alike
  rw [Script.layout, lines_append no_newline whole, placeLines_append, placeLines_congr alike]
  exact ⟨_, rfl⟩

/-- Whole lines are written first, whatever follows. -/
lemma writeLines_whole_append {placed : List PlacedLine} (length : placed.length = upper.length)
    (rest : List Char) (below : List PlacedLine) :
    writeLines (Script.ofText (front ++ rest)).lines (placed ++ below)
      = writeAbove (linesFrom 0 upper) placed
        ++ writeLines (linesFrom front.length (rows rest)) below := by
  rw [lines_append no_newline whole]
  apply writeLines_append
  · rw [length, length_linesFrom]
  · obtain ⟨row, more, first⟩ := exists_rows rest
    rw [first]
    exact List.cons_ne_nil _ _

/-- Whole lines are indented the same, whatever follows. -/
lemma reindent_append (rest : List Char) (offset : Nat) :
    (Script.ofText front).reindent offset <+: (Script.ofText (front ++ rest)).reindent offset := by
  obtain ⟨below, layout⟩ := layout_append no_newline whole rest offset
  have placed := length_placeLines (Script.ofText front) offset [] (linesFrom 0 upper)
  rw [length_linesFrom] at placed
  have alone := writeLines_whole_append no_newline whole placed [] [⟨0, 0, []⟩]
  rw [List.append_nil] at alone
  rw [Script.reindent, Script.reindent, layout, layout_whole no_newline whole, alone,
    writeLines_whole_append no_newline whole placed]
  exact (List.prefix_append_right_inj _).2 List.nil_prefix

/-- The fault of whole lines comes first, and the empty line behind them has none. -/
lemma layoutFault_append (rest : List Char) (offset : Nat) :
    ∃ later, Script.layoutFault? ((Script.ofText (front ++ rest)).layout offset)
      = (Script.layoutFault? ((Script.ofText front).layout offset)).or later := by
  obtain ⟨below, layout⟩ := layout_append no_newline whole rest offset
  have no_fault : [(⟨0, 0, []⟩ : PlacedLine)].findSome? PlacedLine.fault? = none := by decide
  refine ⟨Script.layoutFault? below, ?_⟩
  rw [layout, layout_whole no_newline whole, Script.layoutFault?, Script.layoutFault?,
    Script.layoutFault?, List.findSome?_append, List.findSome?_append, no_fault, Option.or_none]

end

/-- Whole lines are indented before the rest is known: what becomes of them comes first, whatever
follows. A line of them that is too long fails with the same fault, and the rest can fail only
behind them. -/
theorem reindent_online {front : List Char} (whole : WholeLines front) (rest : List Char)
    (offset : Nat) :
    (Script.ofText front).reindent offset <+: (Script.ofText (front ++ rest)).reindent offset ∧
      (∀ fault, (Script.ofText front).tryReindent offset = .error fault →
        (Script.ofText (front ++ rest)).tryReindent offset = .error fault) ∧
      (∀ result, (Script.ofText (front ++ rest)).tryReindent offset = .ok result →
        ∃ first, (Script.ofText front).tryReindent offset = .ok first ∧ first <+: result) := by
  obtain ⟨upper, no_newline, whole, _⟩ := whole.exists_rows
  have comes_first := reindent_append no_newline whole rest offset
  obtain ⟨later, fault⟩ := layoutFault_append no_newline whole rest offset
  refine ⟨comes_first, ?_, ?_⟩
  · intro failure failed
    rw [tryReindent_eq_error] at failed ⊢
    rw [fault, failed, Option.some_or]
  · intro result written
    obtain ⟨no_fault, rfl⟩ := tryReindent_eq_ok.1 written
    rw [fault, Option.or_eq_none_iff] at no_fault
    exact ⟨_, tryReindent_eq_ok.2 ⟨no_fault.1, rfl⟩, comes_first⟩

/-- Lines that open a block, a group and a string. -/
def openText : List Char :=
  "\tDo\n If (a\r\n\t'x\n".toList

/-- Lines that close what is open change nothing above. -/
theorem reindent_openText : WholeLines openText ∧
    (Script.ofText openText).reindent 2
      <+: (Script.ofText (openText ++ " y') EndIf\n /* Loop".toList)).reindent 2 :=
  have whole : WholeLines openText := by
    intro c last
    exact (Option.some.inj last).symm
  ⟨whole, (reindent_online whole _ 2).1⟩

/-! ## One line after the other -/

/-- Where a line begins and where its text stops. -/
def Line.bounds (line : Line) : LineBounds :=
  { start := line.start, stop := line.stop }

/-- A line that is indented by itself, with the lines above as they are. One in a comment or string
stays, one of blanks is emptied, and any other gets the column that it should be indented to. -/
def Script.placeAlone (script : Script) (offset : Nat) (line : Line) : PlacedLine :=
  if (script.contextAt line.firstNonblank).inCode then
    if line.body.isEmpty then { column := 0, indent := 0, body := [] }
    else
      let column := script.columnFor line.bounds offset
      { column, indent := column, body := line.body }
  else { column := line.indentation, indent := 0, body := line.text }

/-- A text with the line of a number indented by itself. -/
def indentLine (offset : Nat) (text : List Char) (number : Nat) : List Char :=
  (Script.ofText text).lines[number]?.elim text fun line =>
    unrows ((rows text).set number
      (((Script.ofText text).placeAlone offset line).text ++ line.ending))

/-- Indents the line of a number by itself, unless it would be too long. -/
def tryIndentLine (offset : Nat) (text : List Char) (number : Nat) :
    Except LengthFault (List Char) :=
  ((Script.ofText text).lines[number]?.bind fun line =>
    ((Script.ofText text).placeAlone offset line).fault?).elim
      (.ok (indentLine offset text number)) .error

section
variable {text : List Char} {number : Nat} {line : Line}
  (found : (Script.ofText text).lines[number]? = some line)
include found

/-- The blanks of a line lie between its bounds. -/
lemma bounds_blanks : line.bounds.blanks (Script.ofText text) = line.blanks := by
  obtain ⟨rest, stands⟩ := exists_standsIn found
  have slice := slice_between stands.text_parts
  rw [← stands.start] at slice
  exact congrArg (List.takeWhile isBlank) slice

/-- The first character that is not blank lies between the bounds. -/
lemma bounds_firstNonblank :
    line.bounds.firstNonblank (Script.ofText text) = line.firstNonblank := by
  rw [LineBounds.firstNonblank, bounds_blanks found]
  rfl

/-- A body begins with the first character that is not blank. -/
lemma getElem?_firstNonblank {c : Char} {more : List Char} (body : line.body = c :: more) :
    text[line.firstNonblank]? = some c := by
  obtain ⟨rest, stands⟩ := exists_standsIn found
  rw [stands.firstNonblank, getElem?_behind stands.body_parts, body]
  rfl

/-- The first character of the body is found between the bounds. -/
lemma bounds_lead : line.bounds.lead? (Script.ofText text) = line.body.head? := by
  have length := congrArg List.length line.blanks_append_body
  rw [List.length_append] at length
  have stop : line.bounds.stop = ((line.start + line.text.length : Nat) : Int) := rfl
  rw [LineBounds.lead?, bounds_firstNonblank found, stop, Line.firstNonblank, ← length]
  cases body : line.body with
  | nil =>
    rw [List.length_nil, if_neg (by omega)]
    rfl
  | cons c more =>
    rw [List.length_cons, if_pos (by omega), ← Line.firstNonblank]
    exact getElem?_firstNonblank found body

/-- A number that is an index has the bounds of its line. -/
lemma bounds_eq (index : isIndex number = true) :
    (Script.ofText text).bounds number = .ok line.bounds := by
  have here : (Script.ofText text).line? number = some line := by
    rw [Script.line?, if_pos (Int.natCast_nonneg number), Int.toNat_natCast, found]
  rw [Script.bounds, index, here]
  dsimp only
  rw [if_neg (by decide), if_neg (by omega)]
  rfl

/-- The column for a line by its number is the one for its bounds. -/
lemma columnOf_eq (index : isIndex number = true) (room offset : Nat) :
    (Script.ofText text).columnOf room number (.integer offset)
      = .ok ((Script.ofText text).columnFor line.bounds offset) := by
  rw [Script.columnOf, bounds_eq found index]
  rfl

/-- A line by itself is placed against the lines above as they are indented. -/
lemma placeAlone_eq (offset : Nat) :
    (Script.ofText text).placeAlone offset line
      = (Script.ofText text).placeLine offset
          ((Script.ofText text).lines.map Line.indentation) line := by
  rw [Script.placeAlone, Script.placeLine]
  cases plan : (Script.ofText text).planLine line with
  | keep =>
    rw [planLine_eq_keep.1 plan]
    rfl
  | indent base levels =>
    have in_code : ((Script.ofText text).contextAt line.firstNonblank).inCode = true := by
      rw [← Bool.not_eq_false, ← planLine_eq_keep, plan]
      intro keep
      cases keep
    have column : (Script.ofText text).columnFor line.bounds offset
        = columnAt offset (base.elim 0 (Script.ofText text).indentationOf) levels := by
      rw [Script.columnFor, bounds_firstNonblank found, bounds_lead found, ← Script.planLine, plan]
    have base_column : (Script.ofText text).indentationOf
        = fun line => ((Script.ofText text).lines.map Line.indentation)[line]?.getD 0 := by
      funext line
      rw [Script.indentationOf, List.getElem?_map]
    rw [if_pos in_code, column, base_column]

/-- No line is placed against one below it. -/
lemma placeLine_columns {columns columns' : List Nat}
    (same : ∀ base < number, columns[base]? = columns'[base]?) (offset : Nat) :
    (Script.ofText text).placeLine offset columns line
      = (Script.ofText text).placeLine offset columns' line := by
  obtain ⟨rest, stands⟩ := exists_standsIn found
  rw [Script.placeLine, Script.placeLine]
  cases plan : (Script.ofText text).planLine line with
  | keep => rfl
  | indent base levels =>
    cases base with
    | none => rfl
    | some base =>
      have above := base_lt_of_planLine stands plan
      rw [count_textAbove found] at above
      dsimp only [Option.elim_some]
      rw [same base above]

end

/-- Each space is one column. -/
lemma columnAfter_spaces (column count : Nat) :
    columnAfter column (List.replicate count ' ') = column + count := by
  induction count generalizing column with
  | zero => rfl
  | succ count ih =>
    rw [List.replicate_succ, columnAfter, if_neg (by decide), ih, Nat.add_assoc, Nat.add_comm 1]

/-- A line that has been placed is indented to its column. -/
lemma indentation_placeLine (script : Script) (offset : Nat) (columns : List Nat) (line : Line)
    (start : Nat) :
    (Line.mk start ((script.placeLine offset columns line).text ++ line.ending)).indentation
      = (script.placeLine offset columns line).column := by
  have no_blank : (line.body ++ line.ending).takeWhile isBlank = [] := by
    rw [← line.dropWhile_row, List.takeWhile_eq_nil_iff]
    exact List.dropWhile_get_zero_not isBlank line.row
  rw [Line.indentation, ← Line.takeWhile_row, Script.placeLine]
  cases script.planLine line with
  | keep =>
    show columnAfter 0 ((line.text ++ line.ending).takeWhile isBlank) = line.indentation
    rw [line.text_append_ending, line.takeWhile_row, Line.indentation]
  | indent base levels =>
    dsimp only
    split
    · rename_i no_body
      rw [List.isEmpty_iff.1 no_body] at no_blank
      show columnAfter 0 (line.ending.takeWhile isBlank) = 0
      rw [show line.ending.takeWhile isBlank = [] from no_blank, columnAfter]
    · dsimp only
      rw [PlacedLine.text, List.append_assoc, List.takeWhile_append_of_pos, no_blank,
        List.append_nil, columnAfter_spaces, Nat.zero_add]
      intro c mem
      rw [List.eq_of_mem_replicate mem]
      rfl

/-! ### The texts on the way -/

/-- A text of which the first lines have been indented, as many as `number`. -/
def partlyIndented (text : List Char) (offset number : Nat) : List Char :=
  let placed := (Script.ofText text).layout offset
  unrows ((placedRows (Script.ofText text).lines placed).take number ++ (rows text).drop number)

section
variable (text : List Char) (offset number : Nat)

/-- As many rows are placed as there are. -/
lemma length_placedRows :
    (placedRows (Script.ofText text).lines ((Script.ofText text).layout offset)).length
      = (rows text).length := by
  rw [placedRows, List.length_zipWith, length_layout, Nat.min_self, Script.ofText, length_linesFrom]

/-- Placed rows above and old rows below keep the lines. -/
lemma keepsLine_partlyIndented :
    List.Forall₂ (KeepsLine (Script.ofText text)) (Script.ofText text).lines
      ((placedRows (Script.ofText text).lines ((Script.ofText text).layout offset)).take number
        ++ (rows text).drop number) := by
  have placed : List.Forall₂ (KeepsLine (Script.ofText text)) (Script.ofText text).lines
      (placedRows (Script.ofText text).lines ((Script.ofText text).layout offset)) :=
    (relaid_placeLines _ _ _ _).imp fun _ _ => Relaid.keepsLine
  have same : List.Forall₂ (KeepsLine (Script.ofText text)) (Script.ofText text).lines
      (rows text) := by
    rw [← row_of_linesFrom 0 (rows text), List.forall₂_map_right_iff]
    exact List.forall₂_same.2 fun _ _ => ⟨.inl rfl, rfl⟩
  have both := List.rel_append (List.forall₂_take number placed) (List.forall₂_drop number same)
  dsimp only at both
  rwa [List.take_append_drop] at both

/-- The rows above are placed, and those below are old. -/
lemma rows_partlyIndented :
    rows (partlyIndented text offset number)
      = (placedRows (Script.ofText text).lines ((Script.ofText text).layout offset)).take number
        ++ (rows text).drop number := by
  have keeps := keepsLine_partlyIndented text offset number
  apply rows_unrows
  · intro nothing
    rw [nothing, List.forall₂_nil_right_iff] at keeps
    exact lines_ne_nil text keeps
  · intro row mem
    rcases List.mem_append.1 mem with mem | mem
    · refine no_newline_of_forall₂_relaid (relaid_placeLines (Script.ofText text) offset [] _)
        (fun _ => no_newline_of_mem_lines) row (List.mem_of_mem_take mem)
    · exact no_newline_of_mem_rows (List.mem_of_mem_drop mem)

/-- A text that is partly indented has the same lines. -/
lemma sameLines_partlyIndented : SameLines text (partlyIndented text offset number) := by
  apply sameLines_of_rows
  rw [rows_partlyIndented]
  exact keepsLine_partlyIndented text offset number

end

section
variable {text : List Char} {number : Nat} {line : Line}
  (found : (Script.ofText text).lines[number]? = some line) (offset : Nat)
include found

/-- A line is placed against the columns of those above. -/
lemma getElem?_layout :
    ((Script.ofText text).layout offset)[number]?
      = some ((Script.ofText text).placeLine offset
          ((((Script.ofText text).layout offset).take number).map PlacedLine.column) line) := by
  rw [Script.layout, getElem?_placeLines, found, Option.map_some, List.nil_append]

/-- A placed row is the placed text and the ending of its line. -/
lemma getElem?_placedRows {placed : PlacedLine}
    (here : ((Script.ofText text).layout offset)[number]? = some placed) :
    (placedRows (Script.ofText text).lines ((Script.ofText text).layout offset))[number]?
      = some (placed.text ++ line.ending) := by
  rw [placedRows, List.getElem?_zipWith, found, here]

/-- The next line is as it was. -/
lemma next_partlyIndented :
    ∃ line', (Script.ofText (partlyIndented text offset number)).lines[number]? = some line' ∧
      line'.row = line.row := by
  have row := row_of_lines found
  have bound := (List.getElem?_eq_some_iff.1 row).1
  have above := List.length_take_of_le (length_placedRows text offset ▸ Nat.le_of_lt bound)
  have here : (rows (partlyIndented text offset number))[number]? = some line.row := by
    rw [rows_partlyIndented, List.getElem?_append_right (Nat.le_of_eq above), above, Nat.sub_self,
      List.getElem?_drop, Nat.add_zero, row]
  have found' := getElem?_linesFrom 0 (rows (partlyIndented text offset number)) number
  rw [here] at found'
  exact ⟨_, found', rfl⟩

/-- The lines above are indented to their columns. -/
lemma columns_partlyIndented {base : Nat} (above : base < number) :
    ((Script.ofText (partlyIndented text offset number)).lines.map Line.indentation)[base]?
      = ((((Script.ofText text).layout offset).take number).map PlacedLine.column)[base]? := by
  have bound := (List.getElem?_eq_some_iff.1 found).1
  have found_base := List.getElem?_eq_getElem (Nat.lt_trans above bound)
  have placed := getElem?_layout found_base offset
  have rows_length := length_placedRows text offset
  rw [Script.ofText, length_linesFrom] at bound
  rw [List.getElem?_map, List.getElem?_map, List.getElem?_take_of_lt above, placed, Script.ofText,
    getElem?_linesFrom, rows_partlyIndented,
    List.getElem?_append_left (by rw [List.length_take]; omega), List.getElem?_take_of_lt above,
    getElem?_placedRows found_base offset placed, Option.map_some, Option.map_some, Option.map_some,
    indentation_placeLine]

/-- Where the lines above are indented already, a line by itself is placed as in the whole text. -/
lemma placeAlone_partlyIndented {line' : Line}
    (found' : (Script.ofText (partlyIndented text offset number)).lines[number]? = some line') :
    ((Script.ofText text).layout offset)[number]?
      = some ((Script.ofText (partlyIndented text offset number)).placeAlone offset line') := by
  have same := sameLines_partlyIndented text offset number
  have alike : PlacedAlike (Script.ofText text)
      (Script.ofText (partlyIndented text offset number)) line line' :=
    ⟨same.sameLine found found', same.planLine_eq found found'⟩
  rw [getElem?_layout found, placeAlone_eq found', ← alike.placeLine_eq]
  -- What is left of the difference are the columns, and those that count stand above.
  exact congrArg some
    (placeLine_columns found (fun base above => (columns_partlyIndented found offset above).symm) _)

/-- To indent the next line is to indent one line more. -/
lemma indentLine_partlyIndented :
    indentLine offset (partlyIndented text offset number) number
      = partlyIndented text offset (number + 1) := by
  obtain ⟨line', found', row⟩ := next_partlyIndented found offset
  have placed := placeAlone_partlyIndented found offset found'
  have bound := (List.getElem?_eq_some_iff.1 (row_of_lines found)).1
  have above := List.length_take_of_le (length_placedRows text offset ▸ Nat.le_of_lt bound)
  have ending : line'.ending = line.ending := by rw [Line.ending_eq, Line.ending_eq, row]
  have next := getElem?_placedRows found offset placed
  rw [indentLine, found', Option.elim_some, rows_partlyIndented,
    List.set_append_right _ _ (Nat.le_of_eq above), above, Nat.sub_self,
    List.drop_eq_getElem_cons bound, List.set_cons_zero, ending]
  show _ = unrows (List.take (number + 1) _ ++ _)
  rw [List.take_add_one, next, List.append_assoc]
  rfl

/-- The next line is indented, or the fault of its layout is told. -/
lemma tryIndentLine_partlyIndented :
    tryIndentLine offset (partlyIndented text offset number) number
      = (((Script.ofText text).layout offset)[number]?.bind PlacedLine.fault?).elim
          (.ok (partlyIndented text offset (number + 1))) .error := by
  obtain ⟨line', found', _⟩ := next_partlyIndented found offset
  rw [tryIndentLine, found', indentLine_partlyIndented found,
    placeAlone_partlyIndented found offset found']
  rfl

end

section
variable {text : List Char} {offset count : Nat}
  (bound : count ≤ (Script.ofText text).lines.length)
include bound

/-- To indent line by line is to indent the lines above. -/
lemma foldl_indentLine :
    (List.range count).foldl (indentLine offset) text = partlyIndented text offset count := by
  induction count with
  | zero => exact (unrows_rows text).symm
  | succ count ih =>
    rw [List.range_succ, List.foldl_append, ih (Nat.le_of_lt bound)]
    exact indentLine_partlyIndented (List.getElem?_eq_getElem bound) offset

/-- To indent line by line stops at the first fault of the layout. -/
lemma foldlM_tryIndentLine :
    (List.range count).foldlM (tryIndentLine offset) text
      = (Script.layoutFault? (((Script.ofText text).layout offset).take count)).elim
          (.ok (partlyIndented text offset count)) .error := by
  induction count with
  | zero => exact congrArg Except.ok (unrows_rows text).symm
  | succ count ih =>
    have next := tryIndentLine_partlyIndented (List.getElem?_eq_getElem bound) offset
    have last : ((Script.ofText text).layout offset)[count]?.toList.findSome? PlacedLine.fault?
        = ((Script.ofText text).layout offset)[count]?.bind PlacedLine.fault? := by
      cases ((Script.ofText text).layout offset)[count]? with
      | none => rfl
      | some placed => rw [Option.toList_some, List.findSome?_singleton, Option.bind_some]
    rw [List.range_succ, List.foldlM_append, ih (Nat.le_of_lt bound), List.take_add_one,
      Script.layoutFault?, Script.layoutFault?, List.findSome?_append, last]
    cases (((Script.ofText text).layout offset).take count).findSome? PlacedLine.fault? with
    | some fault => rfl
    | none =>
      rw [Option.none_or, ← next]
      exact bind_pure (tryIndentLine offset (partlyIndented text offset count) count)

end

/-- A text with all of its lines indented is indented. -/
lemma partlyIndented_all (text : List Char) (offset : Nat) :
    partlyIndented text offset (Script.ofText text).lines.length
      = (Script.ofText text).reindent offset ++ lostReturn text := by
  have length : (Script.ofText text).lines.length = (rows text).length := length_linesFrom 0 _
  rw [Script.reindent, ← lastEnding_lines, writeLines_append_lastEnding (length_layout _ _), length,
    partlyIndented, List.drop_length, List.append_nil, List.take_of_length_le]
  rw [length_placedRows]

/-- To indent a text is to indent its lines one by one from the top, but for a carriage return at its
end: only the whole loses it. The column of each line is the one that is answered for its number. -/
theorem reindent_line_by_line (text : List Char) (offset : Nat) :
    (List.range (Script.ofText text).lineCount).foldl (indentLine offset) text
        = (Script.ofText text).reindent offset ++ lostReturn text ∧
      (List.range (Script.ofText text).lineCount).foldlM (tryIndentLine offset) text
        = ((Script.ofText text).tryReindent offset).map (· ++ lostReturn text) ∧
      ∀ (changed : List Char) (room number : Nat) (line : Line),
        (Script.ofText changed).lines[number]? = some line → isIndex number = true →
        (Script.ofText changed).columnOf room number (.integer offset)
          = .ok ((Script.ofText changed).columnFor line.bounds offset) := by
  have all := partlyIndented_all text offset
  refine ⟨(foldl_indentLine (Nat.le_refl _)).trans all, ?_, ?_⟩
  · have placed := length_layout (Script.ofText text) offset
    rw [Script.lineCount, foldlM_tryIndentLine (Nat.le_refl _), all,
      List.take_of_length_le (Nat.le_of_eq placed), Script.tryReindent]
    cases Script.layoutFault? ((Script.ofText text).layout offset) with
    | some fault => rfl
    | none => rfl
  · intro changed room number line found index
    exact columnOf_eq found index room offset

/-- A text whose first line has to move before the next one can be placed. -/
def leaningText : List Char :=
  "\t\tDo ; 'a\n(\n\t\n'b\n\tc')\nLoop\n x".toList

/-- Line by line, the text is indented as at once. -/
theorem reindent_leaningText : leaningText.getLast? ≠ some '\r' ∧
    (List.range (Script.ofText leaningText).lineCount).foldl (indentLine 4) leaningText
      = (Script.ofText leaningText).reindent 4 := by
  have no_return : leaningText.getLast? ≠ some '\r' := by decide +kernel
  have whole := (reindent_line_by_line leaningText 4).1
  rw [lostReturn, if_neg no_return, List.append_nil] at whole
  exact ⟨no_return, whole⟩

end KixScript

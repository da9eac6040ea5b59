import KixScript.Proofs.Faults
import KixScript.Proofs.Placement
import Mathlib.Data.List.DropRight

/-!
# The canonical form

Indenting a script anew forgets how its lines in code were indented before, and it forgets nothing
else: two texts come out the same if and only if they have the same lines (`reindent_canonical`). A
text that has been indented has the same lines as before, so it is its own result
(`reindent_idempotent`).
-/

namespace KixScript

/-- Two lines are the same, or the first one begins in code and they differ in their leading blanks
only. -/
def SameLine (script : Script) (line line' : Line) : Prop :=
  line.text = line'.text ∨
    (script.contextAt line.firstNonblank).inCode = true ∧ line.body = line'.body

/-- What ends the lines of a script. Nothing ends the last one. -/
def Script.terminators (script : Script) : List (List Char) :=
  script.lines.dropLast.map Line.terminator

/-- Two texts have the same lines with the same ends, but for leading blanks in code. -/
structure SameLines (text text' : List Char) : Prop where
  lines : List.Forall₂ (SameLine (Script.ofText text))
    (Script.ofText text).lines (Script.ofText text').lines
  terminators : (Script.ofText text).terminators = (Script.ofText text').terminators

instance (script : Script) (line line' : Line) : Decidable (SameLine script line line') :=
  inferInstanceAs (Decidable (_ ∨ _))

instance (text text' : List Char) : Decidable (SameLines text text') :=
  decidable_of_iff (_ ∧ _) ⟨fun same => ⟨same.1, same.2⟩, fun same => ⟨same.lines, same.terminators⟩⟩

/-- The same line has the same body. -/
lemma SameLine.body_eq {script : Script} {line line' : Line} (same : SameLine script line line') :
    line.body = line'.body := by
  rcases same with text | ⟨_, body⟩
  · exact congrArg (List.dropWhile isBlank) text
  · exact body

/-! ## What is known above the same lines -/

/-- The same is known behind two texts, and the same is pending. -/
def SameAbove (above above' : List Char) : Prop :=
  ∃ before before' pending, Resumes above before pending ∧ Resumes above' before' pending ∧
    survey before = survey before'

/-- Nothing is above the first line of either text. -/
lemma sameAbove_nil : SameAbove [] [] :=
  have resumes := resumes_blanks (List.forall_mem_nil _)
  ⟨[], [], [], resumes, resumes, rfl⟩

/-- The same whole lines can be added below. -/
lemma SameAbove.append {above above' more : List Char} (same : SameAbove above above')
    (whole : WholeLines more) (some_text : more ≠ []) :
    SameAbove (above ++ more) (above' ++ more) := by
  obtain ⟨before, before', pending, resumes, resumes', known⟩ := same
  obtain ⟨behind, pending', reads_on⟩ := exists_resumes (whole.append some_text pending)
  refine ⟨_, _, pending', resumes.append reads_on, resumes'.append reads_on, ?_⟩
  rw [survey_append, survey_append, known]

namespace Line

/-- A row and its line feed are the text and the terminator of the line. -/
lemma row_newline (line : Line) : line.row ++ ['\n'] = line.text ++ line.terminator := by
  rw [← line.text_append_ending, List.append_assoc]
  rfl

/-- A row and its line feed are the blanks, the body and the terminator of the line. -/
lemma row_newline_parts (line : Line) :
    line.row ++ ['\n'] = line.blanks ++ (line.body ++ line.terminator) := by
  rw [← line.row_parts, List.append_assoc, List.append_assoc]
  rfl

/-- A terminator makes whole lines. -/
lemma wholeLines_terminator (line : Line) (front : List Char) :
    WholeLines (front ++ line.terminator) ∧ front ++ line.terminator ≠ [] := by
  rw [terminator, ← List.append_assoc]
  refine ⟨fun c mem => ?_, List.append_ne_nil_of_right_ne_nil _ (List.cons_ne_nil _ _)⟩
  rw [List.getLast?_concat] at mem
  exact (Option.some.inj mem).symm

end Line

/-- Behind the same line, the same is known as before it. -/
lemma SameAbove.line {line line' : Line} {text text' above above' rest rest' : List Char}
    (same : SameAbove above above') (stands : line.StandsIn text above rest)
    (stands' : line'.StandsIn text' above' rest')
    (same_line : SameLine (Script.ofText text) line line')
    (terminator : line.terminator = line'.terminator) :
    SameAbove (above ++ (line.row ++ ['\n'])) (above' ++ (line'.row ++ ['\n'])) := by
  obtain ⟨before, before', pending, resumes, resumes', known⟩ := same
  by_cases inside : pending = []
  · -- The blanks tell nothing, and behind them both lines go on alike.
    subst inside
    have behind : SameAbove (above ++ line.blanks) (above' ++ line'.blanks) := by
      refine ⟨_, _, [], resumes.line_blanks line, resumes'.line_blanks line', ?_⟩
      rw [survey_blanks (resumes.no_dot stands.whole) fun _ => Line.isBlank_of_mem_blanks,
        survey_blanks (resumes'.no_dot stands'.whole) fun _ => Line.isBlank_of_mem_blanks, known]
    obtain ⟨whole, some_text⟩ := line.wholeLines_terminator line.body
    have behind := behind.append whole some_text
    rwa [List.append_assoc, List.append_assoc, ← line.row_newline_parts, same_line.body_eq,
      terminator, ← line'.row_newline_parts] at behind
  · -- The blanks belong to the string or comment that is pending.
    have not_in_code := stands.not_inCode resumes inside
    have text_eq : line.text = line'.text := by
      rcases same_line with text | ⟨in_code, _⟩
      · exact text
      · rw [not_in_code] at in_code
        cases in_code
    obtain ⟨whole, some_text⟩ := line.wholeLines_terminator line.text
    rw [line.row_newline, line'.row_newline, ← text_eq, ← terminator]
    exact SameAbove.append ⟨before, before', pending, resumes, resumes', known⟩ whole some_text

section
variable {text text' : List Char}

/-- Texts with the same lines have as many. -/
lemma SameLines.length_eq (same : SameLines text text') :
    (Script.ofText text).lines.length = (Script.ofText text').lines.length :=
  same.lines.length_eq

/-- Lines with the same number are the same. -/
lemma SameLines.sameLine (same : SameLines text text') {number : Nat} {line line' : Line}
    (found : (Script.ofText text).lines[number]? = some line)
    (found' : (Script.ofText text').lines[number]? = some line') :
    SameLine (Script.ofText text) line line' := by
  obtain ⟨bound, rfl⟩ := List.getElem?_eq_some_iff.1 found
  obtain ⟨bound', rfl⟩ := List.getElem?_eq_some_iff.1 found'
  exact same.lines.get bound bound'

/-- Lines with the same number have the same terminator, but for the last one. -/
lemma SameLines.terminator_eq (same : SameLines text text') {number : Nat} {line line' : Line}
    (found : (Script.ofText text).lines[number]? = some line)
    (found' : (Script.ofText text').lines[number]? = some line')
    (not_last : number + 1 < (Script.ofText text).lines.length) :
    line.terminator = line'.terminator := by
  have ends : (Script.ofText text).terminators[number]?
      = (Script.ofText text').terminators[number]? := by rw [same.terminators]
  have not_last' := same.length_eq ▸ not_last
  rw [Script.terminators, Script.terminators, List.getElem?_map, List.getElem?_map,
    List.getElem?_dropLast, List.getElem?_dropLast, if_pos (by omega), if_pos (by omega), found,
    found'] at ends
  exact Option.some.inj ends

/-- Above every line, the same is known in both texts. -/
lemma SameLines.sameAbove (same : SameLines text text') {number : Nat}
    (bound : number < (Script.ofText text).lines.length) :
    SameAbove (textAbove text number) (textAbove text' number) := by
  -- Line by line from the top: each line is the last one known so far.
  induction number with
  | zero => exact sameAbove_nil
  | succ number ih =>
    have found := List.getElem?_eq_getElem (Nat.lt_of_succ_lt bound)
    have found' := List.getElem?_eq_getElem (same.length_eq ▸ Nat.lt_of_succ_lt bound)
    obtain ⟨rest, stands⟩ := exists_standsIn found
    obtain ⟨rest', stands'⟩ := exists_standsIn found'
    rw [textAbove_succ (row_of_lines found), textAbove_succ (row_of_lines found')]
    exact (ih (Nat.lt_of_succ_lt bound)).line stands stands' (same.sameLine found found')
      (same.terminator_eq found found' bound)

/-- Lines with the same number have the same plan. -/
lemma SameLines.planLine_eq (same : SameLines text text') {number : Nat} {line line' : Line}
    (found : (Script.ofText text).lines[number]? = some line)
    (found' : (Script.ofText text').lines[number]? = some line') :
    (Script.ofText text).planLine line = (Script.ofText text').planLine line' := by
  obtain ⟨rest, stands⟩ := exists_standsIn found
  obtain ⟨rest', stands'⟩ := exists_standsIn found'
  obtain ⟨before, before', pending, resumes, resumes', known⟩ :=
    same.sameAbove (List.getElem?_eq_some_iff.1 found).1
  exact planLine_congr stands stands' resumes resumes' .rfl known
    (same.sameLine found found').body_eq

end

/-! ## The same lines are placed alike -/

/-- A line is kept if it begins in a comment or string. -/
lemma planLine_eq_keep {script : Script} {line : Line} :
    script.planLine line = .keep ↔ (script.contextAt line.firstNonblank).inCode = false := by
  cases in_code : (script.contextAt line.firstNonblank).inCode with
  | false => simp [planLine_of_not_inCode, in_code]
  | true =>
    obtain ⟨base, levels, plan⟩ := planLine_of_inCode in_code
    rw [plan]
    simp

/-- Two lines are the same, and they are placed by the same plan. -/
structure PlacedAlike (script script' : Script) (line line' : Line) : Prop where
  same : SameLine script line line'
  plan : script.planLine line = script'.planLine line'

namespace PlacedAlike
variable {script script' : Script} {line line' : Line}

/-- Lines that are placed alike begin in code or not alike. -/
lemma inCode_eq (alike : PlacedAlike script script' line line') :
    (script.contextAt line.firstNonblank).inCode
      = (script'.contextAt line'.firstNonblank).inCode := by
  have keeps := @planLine_eq_keep script line
  rw [alike.plan, planLine_eq_keep] at keeps
  exact (Bool.eq_iff_iff.2 (by simpa using not_congr keeps)).symm

/-- Lines that are placed alike are placed at the same column. -/
lemma placeLine_eq (alike : PlacedAlike script script' line line') (offset : Nat)
    (columns : List Nat) :
    script.placeLine offset columns line = script'.placeLine offset columns line' := by
  rw [Script.placeLine, Script.placeLine, ← alike.plan, ← alike.same.body_eq]
  cases plan : script.planLine line with
  | keep =>
    have not_in_code := planLine_eq_keep.1 plan
    rcases alike.same with text | ⟨in_code, _⟩
    · rw [Line.indentation, Line.indentation, Line.blanks, Line.blanks, text]
    · rw [not_in_code] at in_code
      cases in_code
  | indent base levels => rfl

end PlacedAlike

/-- Lists of lines that are placed alike are placed at the same columns. -/
lemma placeLines_congr {script script' : Script} {lines lines' : List Line}
    (alike : List.Forall₂ (PlacedAlike script script') lines lines') (offset : Nat)
    (columns : List Nat) :
    script.placeLines offset columns lines = script'.placeLines offset columns lines' := by
  induction alike generalizing columns with
  | nil => rfl
  | cons first _ ih => rw [Script.placeLines, Script.placeLines, first.placeLine_eq, ih]

/-- Placed lines are written alike between the same terminators. -/
lemma writeLines_congr {lines lines' : List Line} {placed : List PlacedLine}
    (length : placed.length = lines.length) (length' : placed.length = lines'.length)
    (ends : lines.dropLast.map Line.terminator = lines'.dropLast.map Line.terminator) :
    writeLines lines placed = writeLines lines' placed := by
  induction placed generalizing lines lines' with
  | nil => rw [List.length_eq_zero_iff.1 length.symm, List.length_eq_zero_iff.1 length'.symm]
  | cons first rest ih =>
    obtain ⟨line, below, rfl⟩ := List.exists_cons_of_length_eq_add_one length.symm
    obtain ⟨line', below', rfl⟩ := List.exists_cons_of_length_eq_add_one length'.symm
    have length := Nat.succ.inj length
    have length' := Nat.succ.inj length'
    cases rest with
    | nil =>
      rw [List.length_eq_zero_iff.1 length.symm, List.length_eq_zero_iff.1 length'.symm]
      rfl
    | cons second rest =>
      obtain ⟨next, below, rfl⟩ := List.exists_cons_of_length_eq_add_one length.symm
      obtain ⟨next', below', rfl⟩ := List.exists_cons_of_length_eq_add_one length'.symm
      obtain ⟨terminator, ends⟩ := List.cons.inj ends
      have rest_eq := ih length length' ends
      show first.text ++ line.terminator ++ writeLines (next :: below) (second :: rest)
        = first.text ++ line'.terminator ++ writeLines (next' :: below') (second :: rest)
      rw [rest_eq, terminator]

namespace SameLines
variable {text text' : List Char}

/-- The same lines are placed alike. -/
lemma placedAlike (same : SameLines text text') :
    List.Forall₂ (PlacedAlike (Script.ofText text) (Script.ofText text'))
      (Script.ofText text).lines (Script.ofText text').lines := by
  refine List.forall₂_iff_get.2 ⟨same.length_eq, fun number bound bound' => ?_⟩
  have found := List.getElem?_eq_getElem bound
  have found' := List.getElem?_eq_getElem bound'
  exact ⟨same.sameLine found found', same.planLine_eq found found'⟩

/-- The same lines have the same layout. -/
lemma layout_eq (same : SameLines text text') (offset : Nat) :
    (Script.ofText text).layout offset = (Script.ofText text').layout offset :=
  placeLines_congr same.placedAlike offset []

/-- The same lines are indented to the same text. -/
lemma reindent_eq (same : SameLines text text') (offset : Nat) :
    (Script.ofText text).reindent offset = (Script.ofText text').reindent offset := by
  rw [Script.reindent, Script.reindent, ← same.layout_eq offset]
  have length := length_layout (Script.ofText text) offset
  exact writeLines_congr length (length.trans same.length_eq) same.terminators

/-- The same lines are indented to the same text, or refused alike. -/
lemma tryReindent_eq (same : SameLines text text') (offset : Nat) :
    (Script.ofText text).tryReindent offset = (Script.ofText text').tryReindent offset := by
  rw [Script.tryReindent, Script.tryReindent, same.layout_eq offset, same.reindent_eq offset]

/-- To have the same lines goes both ways. -/
lemma symm (same : SameLines text text') : SameLines text' text := by
  refine ⟨.flip (same.placedAlike.imp fun line line' alike => ?_), same.terminators.symm⟩
  rcases alike.same with text | ⟨in_code, body⟩
  · exact .inl text.symm
  · exact .inr ⟨alike.inCode_eq ▸ in_code, body.symm⟩

end SameLines

/-- A line is the same as one that is the same as a line placed alike. -/
lemma SameLine.trans {script script' : Script} {line line' line'' : Line}
    (alike : PlacedAlike script script' line line') (same : SameLine script' line' line'') :
    SameLine script line line'' := by
  rcases same with text | ⟨in_code, body⟩
  · rcases alike.same with text' | ⟨in_code, body⟩
    · exact .inl (text'.trans text)
    · exact .inr ⟨in_code, body.trans (congrArg (List.dropWhile isBlank) text)⟩
  · exact .inr ⟨alike.inCode_eq ▸ in_code, alike.same.body_eq.trans body⟩

/-- Lines are the same as those that are the same as lines placed alike. -/
lemma forall₂_sameLine_trans {script script' : Script} {lines lines' lines'' : List Line}
    (alike : List.Forall₂ (PlacedAlike script script') lines lines')
    (same : List.Forall₂ (SameLine script') lines' lines'') :
    List.Forall₂ (SameLine script) lines lines'' := by
  induction alike generalizing lines'' with
  | nil =>
    cases same
    exact .nil
  | cons first _ ih =>
    cases same with
    | cons first' more => exact .cons (.trans first first') (ih more)

/-- To have the same lines can be carried on. -/
lemma SameLines.trans {text text' text'' : List Char} (same : SameLines text text')
    (same' : SameLines text' text'') : SameLines text text'' :=
  ⟨forall₂_sameLine_trans same.placedAlike same'.lines, same.terminators.trans same'.terminators⟩

/-! ## Texts that keep every line -/

/-- A row keeps a line, its ending included. -/
structure KeepsLine (script : Script) (line : Line) (row : List Char) : Prop where
  same : SameLine script line ⟨line.start, row⟩
  ending : line.ending = (Line.mk line.start row).ending

/-- Rows that keep the lines of a text make a text with the same lines. -/
lemma sameLines_of_rows {text text' : List Char}
    (keeps : List.Forall₂ (KeepsLine (Script.ofText text)) (Script.ofText text).lines (rows text')) :
    SameLines text text' := by
  rw [← row_of_linesFrom 0 (rows text'), List.forall₂_map_right_iff] at keeps
  refine ⟨keeps.imp fun line line' keeps => keeps.same, ?_⟩
  have ends : List.Forall₂ (fun line line' => line.terminator = line'.terminator)
      (Script.ofText text).lines (Script.ofText text').lines :=
    keeps.imp fun line line' keeps => congrArg (· ++ ['\n']) keeps.ending
  have ends : (Script.ofText text).lines.map Line.terminator
      = (Script.ofText text').lines.map Line.terminator := by
    rw [← List.forall₂_eq_eq_eq, List.forall₂_map_left_iff, List.forall₂_map_right_iff]
    exact ends
  rw [Script.terminators, Script.terminators, List.map_dropLast, List.map_dropLast, ends]

namespace Line

/-- The ending of a line shows behind its blanks. -/
lemma ending_eq (line : Line) : line.ending = lostReturn (line.row.dropWhile isBlank) := by
  rw [lostReturn, line.dropWhile_row]
  rcases line.text_ending_cases with ⟨_, ending⟩ | ⟨not_returned, _, ending⟩
  · rw [ending, if_pos List.getLast?_concat]
  · rw [ending, if_neg]
    intro returned
    apply not_returned
    rw [← line.row_parts, ending, List.getLast?_append, returned]
    rfl

/-- Rows that are the same behind their blanks have the same body and ending. -/
lemma parts_eq {line line' : Line}
    (same : line.row.dropWhile isBlank = line'.row.dropWhile isBlank) :
    line.body = line'.body ∧ line.ending = line'.ending := by
  have ending : line.ending = line'.ending := by rw [ending_eq, ending_eq, same]
  rw [dropWhile_row, dropWhile_row, ending] at same
  exact ⟨List.append_cancel_right same, ending⟩

end Line

/-- A row that keeps its contents keeps the line. -/
lemma Relaid.keepsLine {script : Script} {line : Line} {row : List Char}
    (relaid : Relaid script line row) : KeepsLine script line row := by
  rw [Relaid, line.takeWhile_row, ← Line.firstNonblank] at relaid
  split at relaid
  · rename_i in_code
    obtain ⟨count, rfl⟩ := relaid
    have behind : line.row.dropWhile isBlank
        = (List.replicate count ' ' ++ line.row.dropWhile isBlank).dropWhile isBlank := by
      rw [List.dropWhile_append_of_pos, List.dropWhile_idempotent]
      intro c mem
      rw [List.eq_of_mem_replicate mem]
      rfl
    obtain ⟨body, ending⟩ := @Line.parts_eq line ⟨line.start, _⟩ behind
    exact ⟨.inr ⟨in_code, body⟩, ending⟩
  · obtain rfl := relaid
    exact ⟨.inl rfl, rfl⟩

/-- A text that keeps its contents keeps its lines. -/
lemma SameContents.sameLines {text result : List Char} (same : SameContents text result) :
    SameLines text result :=
  sameLines_of_rows (same.relaid.imp fun _ _ => Relaid.keepsLine)

/-- A carriage return at the end of a text changes no line. -/
lemma sameLines_append_return {text : List Char} (no_return : text.getLast? ≠ some '\r') :
    SameLines (text ++ ['\r']) text := by
  obtain ⟨above, row, split, same⟩ := exists_last_row text
  have no_newline : ∀ other ∈ above ++ [row], '\n' ∉ other := by
    rw [← split]
    exact fun _ => no_newline_of_mem_rows
  have split' : rows (text ++ ['\r']) = above ++ [row ++ ['\r']] := by
    rw [same, List.append_assoc,
      rows_flatMap_append fun other mem => no_newline other (List.mem_append_left _ mem),
      rows_of_no_newline]
    simpa using no_newline row (List.mem_append_right above List.mem_cons_self)
  have not_returned : row.getLast? ≠ some '\r' := by
    intro returned
    apply no_return
    rw [same, List.getLast?_append, returned]
    rfl
  have text_eq : withoutReturn (row ++ ['\r']) = withoutReturn row := by
    rw [withoutReturn, withoutReturn, if_pos List.getLast?_concat, if_neg not_returned,
      List.dropLast_concat]
  refine ⟨?_, ?_⟩
  · rw [Script.ofText, Script.ofText, split, split', linesFrom_append, linesFrom_append]
    apply List.rel_append
    · exact List.forall₂_same.2 fun _ _ => .inl rfl
    · exact .cons (.inl text_eq) .nil
  · rw [Script.terminators, Script.terminators, Script.ofText, Script.ofText, split, split',
      linesFrom_append, linesFrom_append]
    exact congrArg _ (List.dropLast_concat.trans List.dropLast_concat.symm)

/-- A body ends with a carriage return if the text of the line does. -/
lemma Line.getLast?_body (line : Line) :
    line.body.getLast? = some '\r' ↔ line.text.getLast? = some '\r' := by
  rw [← line.blanks_append_body, List.getLast?_append]
  cases line.body.getLast? with
  | some c => rfl
  | none =>
    refine ⟨nofun, fun returned => ?_⟩
    exact absurd (Line.isBlank_of_mem_blanks (List.mem_of_getLast? returned)) (by decide)

/-- A text with a second carriage return at its end keeps one in its last line. -/
lemma SameLines.no_two_returns {text text' : List Char} (same : SameLines text text')
    (no_return' : text'.getLast? ≠ some '\r') : ¬ ['\r', '\r'] <:+ text := by
  rintro ⟨front, returns⟩
  obtain ⟨above, line, split, whole, last⟩ := exists_last_line text
  obtain ⟨above', line', split', whole', last'⟩ := exists_last_line text'
  have returned : line.text.getLast? = some '\r' := by
    rw [split, ← List.singleton_append, ← List.append_assoc] at returns
    rcases line.text_ending_cases with ⟨row, _⟩ | ⟨not_returned, _⟩
    · rw [row, ← List.append_assoc] at returns
      rw [← whole.getLast?_append, ← (List.append_inj' returns rfl).1, List.getLast?_concat]
    · refine absurd ?_ not_returned
      rw [← whole.getLast?_append, ← returns, List.getLast?_concat]
  have not_returned : line'.text.getLast? ≠ some '\r' := by
    rw [split', Ne, whole'.getLast?_append] at no_return'
    rcases line'.text_ending_cases with ⟨row, _⟩ | ⟨_, row, _⟩
    · exact absurd (row ▸ List.getLast?_concat) no_return'
    · rwa [← row]
  rw [List.getLast?_eq_getElem?] at last last'
  rw [← same.length_eq] at last'
  rw [← line.getLast?_body, (same.sameLine last last').body_eq, line'.getLast?_body] at returned
  exact not_returned returned

/-- Indentation keeps the lines. -/
lemma sameLines_reindent {text : List Char} (one_return : ¬ ['\r', '\r'] <:+ text) (offset : Nat) :
    SameLines text ((Script.ofText text).reindent offset) := by
  by_cases returned : text.getLast? = some '\r'
  · obtain ⟨front, rfl⟩ : ∃ front, text = front ++ ['\r'] :=
      ⟨_, (List.dropLast_append_getLast? _ returned).symm⟩
    have no_return : front.getLast? ≠ some '\r' := by
      intro again
      apply one_return
      rw [← List.dropLast_append_getLast? _ again, List.append_assoc]
      exact List.suffix_append _ _
    have same := sameLines_append_return no_return
    have kept := sameContents_reindent front offset
    rw [lostReturn, if_neg no_return, List.append_nil, ← same.reindent_eq offset] at kept
    exact same.trans kept.sameLines
  · have kept := sameContents_reindent text offset
    rw [lostReturn, if_neg returned, List.append_nil] at kept
    exact kept.sameLines

/-- Nothing is lost from a text that is its own result. -/
lemma getLast?_of_reindent_eq {text : List Char} {offset : Nat}
    (same : (Script.ofText text).reindent offset = text) : text.getLast? ≠ some '\r' := by
  intro returned
  have count := (sameContents_reindent text offset).count_return
  rw [same, lostReturn, if_pos returned, List.count_append, List.count_singleton_self] at count
  omega

/-- Two texts with the same lines come out the same. Two texts that come out the same have the same
lines, but for a second carriage return at the end. -/
theorem reindent_canonical (text text' : List Char) (offset : Nat) :
    (SameLines text text' →
        (Script.ofText text).reindent offset = (Script.ofText text').reindent offset ∧
        (Script.ofText text).tryReindent offset = (Script.ofText text').tryReindent offset) ∧
      (¬ ['\r', '\r'] <:+ text → ¬ ['\r', '\r'] <:+ text' →
        (Script.ofText text).reindent offset = (Script.ofText text').reindent offset →
        SameLines text text') := by
  refine ⟨fun same => ⟨same.reindent_eq offset, same.tryReindent_eq offset⟩, ?_⟩
  intro one_return one_return' result
  have same := sameLines_reindent one_return offset
  rw [result] at same
  exact same.trans (sameLines_reindent one_return' offset).symm

/-- A text with a stray closer, an unmatched parenthesis and a comment that is not closed. -/
def brokenText : List Char :=
  "\t If (a\r\n 'x\n\ty'\n  b)) EndIf\nLoop\n \n/* c\n\tElse".toList

/-- The same text with other blanks in code. -/
def movedText : List Char :=
  "If (a\r\n\t'x\n\ty'\nb)) EndIf\n   Loop\n\n\t/* c\n\tElse".toList

/-- Moved lines are indented to the same text. -/
theorem reindent_movedText : SameLines brokenText movedText ∧
    (Script.ofText brokenText).reindent 3 = (Script.ofText movedText).reindent 3 ∧
    (Script.ofText brokenText).tryReindent 3 = (Script.ofText movedText).tryReindent 3 :=
  have same : SameLines brokenText movedText := by decide +kernel
  ⟨same, (reindent_canonical brokenText movedText 3).1 same⟩

/-- Indenting a text twice is the same as indenting it once, if and only if it does not end in two
carriage returns, of which each time one is lost. -/
theorem reindent_idempotent (text : List Char) (offset : Nat) :
    ((Script.ofText ((Script.ofText text).reindent offset)).reindent offset
        = (Script.ofText text).reindent offset ↔ ¬ ['\r', '\r'] <:+ text) ∧
      (¬ ['\r', '\r'] <:+ text →
        ((Script.ofText text).tryReindent offset).bind
            (fun result => (Script.ofText result).tryReindent offset)
          = (Script.ofText text).tryReindent offset) := by
  refine ⟨⟨fun twice => ?_, fun one_return => ?_⟩, fun one_return => ?_⟩
  · have no_return := getLast?_of_reindent_eq twice
    have same := (sameContents_reindent text offset).sameLines
    apply SameLines.no_two_returns ?_ no_return
    rw [lostReturn] at same
    split at same
    · exact same.trans (sameLines_append_return no_return)
    · rwa [List.append_nil] at same
  · exact ((sameLines_reindent one_return offset).reindent_eq offset).symm
  · cases written : (Script.ofText text).tryReindent offset with
    | error fault => rfl
    | ok result =>
      have again := (sameLines_reindent one_return offset).tryReindent_eq offset
      rw [written, (tryReindent_eq_ok.1 written).2] at again
      exact again.symm

/-- Indentation done twice is the same as done once. -/
theorem reindent_brokenText_twice : ¬ ['\r', '\r'] <:+ brokenText ∧
    (Script.ofText ((Script.ofText brokenText).reindent 3)).reindent 3
      = (Script.ofText brokenText).reindent 3 :=
  have one_return : ¬ ['\r', '\r'] <:+ brokenText := by decide +kernel
  ⟨one_return, (reindent_idempotent brokenText 3).1.2 one_return⟩

end KixScript

import KixScript.Block.Navigation
import KixScript.Layout
import KixScript.Proofs.Folding
import KixScript.Proofs.Rows

/-!
# The case of letters

What is found in a folded text is what is found in the text: first in its scan, then by the queries
about offsets, then in its lines and their layout. Two texts that differ in the case of letters
alone are folded to the same text, so they look the same (`letter_case_ignored`).
-/

namespace KixScript

/-! ## Scans -/

/-- A folded atom starts where the atom does. -/
lemma Atom.start_folded (atom : Atom) : atom.folded.start = atom.start := by
  cases atom <;> rfl

/-- A folded atom stops where the atom does. -/
lemma Atom.stop_folded (atom : Atom) : atom.folded.stop = atom.stop := by
  cases atom <;> rfl

/-- A folded atom is the same keyword. -/
lemma Atom.occurrence?_folded (atom : Atom) : atom.folded.occurrence? = atom.occurrence? := by
  cases atom <;> rfl

section
variable (text : List Char)

/-- The pieces are folded. -/
lemma pieces_folded :
    (Script.ofText (folded text)).scan.pieces
      = (Script.ofText text).scan.pieces.map Piece.folded := by
  rw [pieces_ofText, pieces_ofText, lexemes_folded, placed_folded]

/-- What is seen in each piece, whatever its case, is seen in both texts. -/
lemma filterMap_folded {α : Type} {view : Piece → Option α} {carry : α → α}
    (each : ∀ piece : Piece, view piece.folded = (view piece).map carry) :
    (Script.ofText (folded text)).scan.pieces.filterMap view
      = ((Script.ofText text).scan.pieces.filterMap view).map carry := by
  rw [pieces_folded, List.filterMap_map, List.map_filterMap]
  exact List.filterMap_congr fun piece _ => each piece

/-- The comments and strings stay. -/
lemma regions_folded :
    (Script.ofText (folded text)).scan.regions = (Script.ofText text).scan.regions := by
  refine (filterMap_folded text ?_).trans (List.map_id _)
  intro piece
  rw [Option.map_id_fun, id]
  exact piece.region?_folded

/-- The runs of punctuation stay. -/
lemma punctuation_folded :
    (Script.ofText (folded text)).scan.punctuation = (Script.ofText text).scan.punctuation := by
  refine (filterMap_folded text ?_).trans (List.map_id _)
  intro piece
  rw [Option.map_id_fun, id]
  exact piece.punctuation?_folded

/-- The words are folded. -/
lemma words_folded :
    (Script.ofText (folded text)).scan.words = (Script.ofText text).scan.words.map Word.folded :=
  filterMap_folded text Piece.word?_folded

/-- The atoms are folded. -/
lemma atoms_folded :
    (Script.ofText (folded text)).scan.atoms = (Script.ofText text).scan.atoms.map Atom.folded := by
  have loose : looseAtoms .start (lexemes (folded text))
      = (looseAtoms .start (lexemes text)).map Atom.folded :=
    filterMap_folded text Piece.atom?_folded
  rw [atoms_ofText, atoms_ofText, loose]
  exact pairAtoms_changed _ _ _

/-- The depths stay. -/
lemma depths_folded :
    (Script.ofText (folded text)).scan.depths = (Script.ofText text).scan.depths := by
  have before : (Script.ofText (folded text)).scan.pieces.flatMap Piece.depths
      = (Script.ofText text).scan.pieces.flatMap Piece.depths := by
    rw [pieces_folded, List.flatMap_map]
    exact List.flatMap_congr fun piece _ => piece.depths_folded
  have last : ((lexemes (folded text)).foldl Cursor.advance .start).depth
      = ((lexemes text).foldl Cursor.advance .start).depth := by
    rw [lexemes_folded, after_folded]
  exact congrArg₂ (fun before last => before ++ [last]) before last

/-- The parts stay. -/
lemma highlight_folded :
    (Script.ofText (folded text)).highlight = (Script.ofText text).highlight := by
  rw [Script.highlight, Script.highlight, pieces_folded, List.flatMap_map]
  exact List.flatMap_congr fun piece _ => piece.parts_folded

/-! ## Queries -/

/-- The length stays. -/
lemma scriptLength_folded : (Script.ofText (folded text)).length = (Script.ofText text).length :=
  length_folded text

/-- Each offset keeps its context. -/
lemma contextAt_folded (offset : Int) :
    (Script.ofText (folded text)).contextAt offset = (Script.ofText text).contextAt offset := by
  unfold Script.contextAt Script.regionAt Script.depthAt
  rw [regions_folded, depths_folded, scriptLength_folded]

/-- The atoms before an offset are folded. -/
lemma atomsBefore_folded (offset : Int) :
    (Script.ofText (folded text)).atomsBefore offset
      = ((Script.ofText text).atomsBefore offset).map Atom.folded := by
  rw [Script.atomsBefore, Script.atomsBefore, atoms_folded, List.filter_map]
  congr 1
  apply List.filter_congr
  intro atom _
  rw [Function.comp_apply, Atom.start_folded]

/-- The same keywords are met on the way back. -/
lemma keywordsBack_folded (atoms : List Atom) :
    keywordsBack (atoms.map Atom.folded) = keywordsBack atoms := by
  refine (keywordsBack_changed Word.folded id ?_ atoms).trans (List.map_id _)
  intro atom
  rw [Option.map_id_fun, id]
  exact atom.occurrence?_folded

/-- Each offset keeps the innermost opener around it. -/
lemma enclosingOpener_folded (offset : Int) :
    (Script.ofText (folded text)).enclosingOpener offset
      = (Script.ofText text).enclosingOpener offset := by
  rw [Script.enclosingOpener, Script.enclosingOpener, contextAt_folded, atomsBefore_folded,
    keywordsBack_folded]

/-- Each offset keeps its keyword. -/
lemma keywordAt_folded (offset : Int) :
    (Script.ofText (folded text)).keywordAt offset = (Script.ofText text).keywordAt offset := by
  rw [Script.keywordAt, Script.keywordAt, atomsBefore_folded, List.getLast?_map]
  cases ((Script.ofText text).atomsBefore (offset + 1)).getLast? with
  | none => rfl
  | some atom =>
    show (if (atom.folded.stop : Int) ≤ offset then none else atom.folded.occurrence?) = _
    rw [atom.stop_folded, atom.occurrence?_folded]

/-- Each offset keeps the opener that it is matched with. -/
lemma matchingOpener_folded (offset : Int) :
    (Script.ofText (folded text)).matchingOpener offset
      = (Script.ofText text).matchingOpener offset := by
  rw [Script.matchingOpener, Script.matchingOpener, keywordAt_folded]
  cases (Script.ofText text).keywordAt offset with
  | none => rfl
  | some found =>
    dsimp only
    rw [atomsBefore_folded, keywordsBack_folded]

/-- A keyword is found at the same places. -/
lemma occurrencesOf_folded (keyword : Keyword) :
    (Script.ofText (folded text)).occurrencesOf keyword
      = (Script.ofText text).occurrencesOf keyword := by
  rw [Script.occurrencesOf, Script.occurrencesOf, atoms_folded, List.filterMap_map]
  congr 1
  exact List.filterMap_congr fun atom _ => atom.occurrence?_folded

/-- Jumps lead to the same places. -/
lemma jump_folded (places : List Nat) (offset : Int) (forward : Bool) (count : Nat) :
    (Script.ofText (folded text)).jump places offset forward count
      = (Script.ofText text).jump places offset forward count := by
  rw [Script.jump, Script.jump, scriptLength_folded]

/-- Moves to the beginnings of functions lead to the same places. -/
lemma beginningOfFunction_folded (offset count : Int) :
    (Script.ofText (folded text)).beginningOfFunction offset count
      = (Script.ofText text).beginningOfFunction offset count := by
  rw [Script.beginningOfFunction, Script.beginningOfFunction, occurrencesOf_folded, jump_folded]

/-- Moves to the ends of functions lead to the same places. -/
lemma endOfFunction_folded (offset count : Int) :
    (Script.ofText (folded text)).endOfFunction offset count
      = (Script.ofText text).endOfFunction offset count := by
  rw [Script.endOfFunction, Script.endOfFunction, occurrencesOf_folded, jump_folded]

end

/-! ## Lines -/

/-- The rows are folded. -/
lemma rows_folded (text : List Char) : rows (folded text) = (rows text).map folded := by
  induction text with
  | nil => rfl
  | cons c rest ih =>
    rw [folded_cons]
    by_cases newline : c = '\n'
    · rw [(toLower_eq_iff rfl).2 newline, newline, rows_newline, rows_newline, ih, List.map_cons,
        folded_nil]
    · obtain ⟨row, more, split⟩ := exists_rows rest
      have split' : rows (folded rest) = folded row :: more.map folded := by
        rw [ih, split, List.map_cons]
      have newline' : c.toLower ≠ '\n' := fun same => newline ((toLower_eq_iff rfl).1 same)
      rw [rows_cons newline split, rows_cons newline' split', List.map_cons, folded_cons]

/-- A carriage return is left out of a folded row too. -/
lemma withoutReturn_folded (row : List Char) :
    withoutReturn (folded row) = folded (withoutReturn row) := by
  have last : (folded row).getLast? = some '\r' ↔ row.getLast? = some '\r' := getLast?_folded rfl
  unfold withoutReturn
  simp only [last]
  split
  · exact List.map_dropLast.symm
  · rfl

/-- The column behind blanks stays. -/
lemma columnAfter_folded (column : Nat) (blanks : List Char) :
    columnAfter column (folded blanks) = columnAfter column blanks := by
  induction blanks generalizing column with
  | nil => rfl
  | cons c rest ih =>
    have tab : c.toLower = '\t' ↔ c = '\t' := toLower_eq_iff rfl
    rw [folded_cons, columnAfter, columnAfter, ih]
    simp only [tab]

namespace Line

/-- A line of the folded text. -/
def folded (line : Line) : Line :=
  { line with row := KixScript.folded line.row }

variable (line : Line)

/-- The text of a folded line is folded. -/
lemma text_folded : line.folded.text = KixScript.folded line.text :=
  withoutReturn_folded line.row

/-- The blanks of a folded line are folded. -/
lemma blanks_folded : line.folded.blanks = KixScript.folded line.blanks := by
  rw [blanks, blanks, text_folded, caseBlind_isBlank.takeWhile]

/-- The body of a folded line is folded. -/
lemma body_folded : line.folded.body = KixScript.folded line.body := by
  rw [body, body, text_folded, caseBlind_isBlank.dropWhile]

/-- The first character that is not blank stays where it is. -/
lemma firstNonblank_folded : line.folded.firstNonblank = line.firstNonblank := by
  rw [firstNonblank, firstNonblank, blanks_folded, length_folded]
  rfl

/-- The indentation stays. -/
lemma indentation_folded : line.folded.indentation = line.indentation := by
  rw [indentation, indentation, blanks_folded, columnAfter_folded]

/-- The terminator of a folded line is folded. -/
lemma terminator_folded : line.folded.terminator = KixScript.folded line.terminator := by
  rw [terminator, terminator, text_folded, length_folded, folded_append]
  exact congrArg (· ++ ['\n']) List.map_drop.symm

end Line

/-- Folded rows make folded lines. -/
lemma linesFrom_folded (start : Nat) (all : List (List Char)) :
    linesFrom start (all.map folded) = (linesFrom start all).map Line.folded := by
  induction all generalizing start with
  | nil => rfl
  | cons row more ih =>
    rw [List.map_cons, linesFrom, linesFrom, List.map_cons, length_folded, ih]
    rfl

/-! ## Layout -/

section
variable (text : List Char)

/-- The lines are folded. -/
lemma lines_folded :
    (Script.ofText (folded text)).lines = (Script.ofText text).lines.map Line.folded := by
  show linesFrom 0 (rows (folded text)) = (linesFrom 0 (rows text)).map Line.folded
  rw [rows_folded, linesFrom_folded]

/-- Each offset stays on its line. -/
lemma lineOf_folded (offset : Int) :
    (Script.ofText (folded text)).lineOf offset = (Script.ofText text).lineOf offset := by
  unfold Script.lineOf Script.clamp
  dsimp only
  rw [scriptLength_folded, lines_folded, List.filter_map, List.length_map]
  rfl

/-- Lines start where they did. -/
lemma lineStart_folded (line : Nat) :
    (Script.ofText (folded text)).lineStart line = (Script.ofText text).lineStart line := by
  rw [Script.lineStart, Script.lineStart, lines_folded, List.getElem?_map, Option.map_map]
  rfl

/-- Lines are aligned with the same openers. -/
lemma alignment_folded (start : Nat) :
    (Script.ofText (folded text)).alignment start = (Script.ofText text).alignment start := by
  unfold Script.alignment
  rw [enclosingOpener_folded, keywordAt_folded, matchingOpener_folded]

/-- Lines have the same plans. -/
lemma planLine_folded (line : Line) :
    (Script.ofText (folded text)).planLine line.folded = (Script.ofText text).planLine line := by
  have closing : line.folded.body.head? = some ')' ↔ line.body.head? = some ')' := by
    rw [line.body_folded]
    exact head?_folded rfl
  unfold Script.planLine Script.plan
  rw [line.firstNonblank_folded, alignment_folded, contextAt_folded]
  simp only [closing, contextAt_folded, lineOf_folded, lineStart_folded]

/-- A placed line of the folded text. -/
def PlacedLine.folded (placed : PlacedLine) : PlacedLine :=
  { placed with body := KixScript.folded placed.body }

/-- The text of a folded line that is placed is folded. -/
lemma PlacedLine.text_folded (placed : PlacedLine) :
    placed.folded.text = KixScript.folded placed.text := by
  have spaces : KixScript.folded (List.replicate placed.indent ' ')
      = List.replicate placed.indent ' ' := List.map_replicate
  rw [text, text, folded_append, spaces]
  rfl

/-- A line is placed at the same column. -/
lemma placeLine_folded (offset : Nat) (columns : List Nat) (line : Line) :
    (Script.ofText (folded text)).placeLine offset columns line.folded
      = ((Script.ofText text).placeLine offset columns line).folded := by
  have empty : (folded line.body).isEmpty = line.body.isEmpty := List.isEmpty_map
  unfold Script.placeLine
  rw [planLine_folded]
  cases (Script.ofText text).planLine line with
  | keep =>
    dsimp only
    rw [line.indentation_folded, line.text_folded]
    rfl
  | indent base levels =>
    dsimp only
    rw [line.body_folded, empty]
    split <;> rfl

/-- Lines are placed at the same columns. -/
lemma placeLines_folded (offset : Nat) (columns : List Nat) (lines : List Line) :
    (Script.ofText (folded text)).placeLines offset columns (lines.map Line.folded)
      = ((Script.ofText text).placeLines offset columns lines).map PlacedLine.folded := by
  induction lines generalizing columns with
  | nil => rfl
  | cons line below ih =>
    rw [List.map_cons, Script.placeLines, Script.placeLines, placeLine_folded, List.map_cons]
    exact congrArg (List.cons _) (ih _)

/-- The layout is folded. -/
lemma layout_folded (offset : Nat) :
    (Script.ofText (folded text)).layout offset
      = ((Script.ofText text).layout offset).map PlacedLine.folded := by
  rw [Script.layout, lines_folded, placeLines_folded, Script.layout]

/-- Folded lines are written as the folded text. -/
lemma writeLines_folded (lines : List Line) (placed : List PlacedLine) :
    writeLines (lines.map Line.folded) (placed.map PlacedLine.folded)
      = folded (writeLines lines placed) := by
  fun_induction writeLines lines placed with
  | case1 line placed => exact placed.text_folded
  | case2 line lines placed rest not_last ih =>
    rw [folded_append, folded_append, ← ih, ← line.terminator_folded, ← placed.text_folded]
    cases lines with
    | nil =>
      cases rest with
      | nil => exact absurd rfl (not_last rfl)
      | cons other rest => rfl
    | cons other lines => rfl
  | case3 lines placed _ not_both =>
    cases lines with
    | nil => rfl
    | cons line lines =>
      cases placed with
      | nil => cases lines <;> rfl
      | cons placed rest => exact (not_both line lines placed rest rfl rfl).elim

/-- The folded text is indented as the text is. -/
lemma reindent_folded (offset : Nat) :
    (Script.ofText (folded text)).reindent offset
      = folded ((Script.ofText text).reindent offset) := by
  rw [Script.reindent, lines_folded, layout_folded, writeLines_folded, Script.reindent]

/-- Indentation can be done before folding or behind it. -/
lemma tryReindent_folded (offset : Nat) :
    (Script.ofText (folded text)).tryReindent offset
      = ((Script.ofText text).tryReindent offset).map folded := by
  have each : PlacedLine.fault? ∘ PlacedLine.folded = PlacedLine.fault? := by
    funext placed
    rw [Function.comp_apply, PlacedLine.fault?, PlacedLine.fault?, PlacedLine.folded]
  have fault : Script.layoutFault? (((Script.ofText text).layout offset).map PlacedLine.folded)
      = Script.layoutFault? ((Script.ofText text).layout offset) := by
    rw [Script.layoutFault?, Script.layoutFault?, List.findSome?_map, each]
  unfold Script.tryReindent
  rw [reindent_folded, layout_folded, fault]
  cases Script.layoutFault? ((Script.ofText text).layout offset) with
  | none => rfl
  | some fault => rfl

end

/-! ## Texts of the same letters -/

/-- Two scripts are of the same words, of whatever case, and everything else that is found in them is
the same. What is made of them by indenting differs in the case of letters alone. -/
structure Script.SameButCase (script script' : Script) : Prop where
  regions : script.scan.regions = script'.scan.regions
  punctuation : script.scan.punctuation = script'.scan.punctuation
  words : script.scan.words.map Word.folded = script'.scan.words.map Word.folded
  atoms : script.scan.atoms.map Atom.folded = script'.scan.atoms.map Atom.folded
  depths : script.scan.depths = script'.scan.depths
  highlight : script.highlight = script'.highlight
  enclosing : ∀ offset, script.enclosingOpener offset = script'.enclosingOpener offset
  keywords : ∀ offset, script.keywordAt offset = script'.keywordAt offset
  matching : ∀ offset, script.matchingOpener offset = script'.matchingOpener offset
  beginnings : ∀ offset count,
    script.beginningOfFunction offset count = script'.beginningOfFunction offset count
  endings : ∀ offset count, script.endOfFunction offset count = script'.endOfFunction offset count
  layouts : ∀ offset, SameLetters (script.reindent offset) (script'.reindent offset)
  results : ∀ offset,
    (script.tryReindent offset).map folded = (script'.tryReindent offset).map folded

/-- What folding does not change is the same for all texts of the same letters. -/
lemma SameLetters.view_eq {α : Type} {text text' : List Char} (same : SameLetters text text')
    (view : Script → α)
    (blind : ∀ text, view (Script.ofText (folded text)) = view (Script.ofText text)) :
    view (Script.ofText text) = view (Script.ofText text') :=
  calc view (Script.ofText text)
      = view (Script.ofText (folded text)) := (blind text).symm
    _ = view (Script.ofText (folded text')) := congrArg (view ∘ Script.ofText) same
    _ = view (Script.ofText text') := blind text'

/-- What is folded with the text is folded to the same for all texts of the same letters. -/
lemma SameLetters.carried_eq {α : Type} {text text' : List Char} (same : SameLetters text text')
    (view : Script → α) (carry : α → α)
    (carried : ∀ text, view (Script.ofText (folded text)) = carry (view (Script.ofText text))) :
    carry (view (Script.ofText text)) = carry (view (Script.ofText text')) :=
  calc carry (view (Script.ofText text))
      = view (Script.ofText (folded text)) := (carried text).symm
    _ = view (Script.ofText (folded text')) := congrArg (view ∘ Script.ofText) same
    _ = carry (view (Script.ofText text')) := carried text'

/-- The case of letters never matters. -/
theorem letter_case_ignored {text text' : List Char} (same : SameLetters text text') :
    (Script.ofText text).SameButCase (Script.ofText text') where
  regions := same.view_eq (·.scan.regions) regions_folded
  punctuation := same.view_eq (·.scan.punctuation) punctuation_folded
  words := same.carried_eq (·.scan.words) (List.map Word.folded) words_folded
  atoms := same.carried_eq (·.scan.atoms) (List.map Atom.folded) atoms_folded
  depths := same.view_eq (·.scan.depths) depths_folded
  highlight := same.view_eq (·.highlight) highlight_folded
  enclosing offset := same.view_eq (·.enclosingOpener offset) (enclosingOpener_folded · offset)
  keywords offset := same.view_eq (·.keywordAt offset) (keywordAt_folded · offset)
  matching offset := same.view_eq (·.matchingOpener offset) (matchingOpener_folded · offset)
  beginnings offset count :=
    same.view_eq (·.beginningOfFunction offset count) (beginningOfFunction_folded · offset count)
  endings offset count :=
    same.view_eq (·.endOfFunction offset count) (endOfFunction_folded · offset count)
  layouts offset := same.carried_eq (·.reindent offset) folded (reindent_folded · offset)
  results offset :=
    same.carried_eq (·.tryReindent offset) (Except.map folded) (tryReindent_folded · offset)

/-- A function with a member, a string, a macro with letters behind it and a stray keyword. -/
def mixedText : List Char :=
  "Function Ab($c)\n$o.Next = 'Do'\nIf @Datex (\nelse\nEndFunction".toList

/-- The same letters in other cases. -/
def shoutedText : List Char :=
  "FUNCTION aB($C)\n$O.nEXT = 'dO'\niF @dATEX (\nELSE\neNDfUNCTION".toList

/-- The two texts differ in case alone, so all but case is the same. -/
theorem letter_case_of_mixedText : SameLetters mixedText shoutedText ∧ mixedText ≠ shoutedText ∧
    (Script.ofText mixedText).SameButCase (Script.ofText shoutedText) := by
  have same : SameLetters mixedText shoutedText := by decide +kernel
  exact ⟨same, by decide +kernel, letter_case_ignored same⟩

end KixScript

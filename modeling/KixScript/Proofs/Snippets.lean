import KixScript.Proofs.Cover
import KixScript.Proofs.Positions
import KixScript.Proofs.Views
import KixScript.Warning
import Mathlib.Data.List.DropRight

/-!
# Snippets

A warning is about characters on one line (`exists_pointsAt`). What is shown with it is a line of the
text by another measure, which breaks lines at more characters. Whole lines have as many broken lines
as they have line feeds and stray breaks (`length_brokenLines`). So the line shown begins where the
line of the warning does if there is no stray break above it; then it is the whole line unless that has
a break inside (`shown_eq_iff`), and the carets stand under the characters that the warning is about
(`PointsAt.render_eq`). Behind a stray break the line shown is one of those above
(`snippet_of_warning`).
-/

namespace KixScript

/-- Whether a break ends no line: it is neither a line feed nor a carriage return before one. -/
def isStray (c : Char) (rest : List Char) : Bool :=
  isLineBreak c && c != '\n' && !(c == '\r' && rest.head? == some '\n')

/-- The number of breaks in a text that end no line. -/
def strayBreaks : List Char → Nat
  | [] => 0
  | c :: rest => strayBreaks rest + if isStray c rest then 1 else 0

/-- A line without a break before its last character, which is no carriage return. -/
def Unbroken (text : List Char) : Prop :=
  (∀ c ∈ text.dropLast, isLineBreak c = false) ∧ text.getLast? ≠ some '\r'

/-- A line behind its number, and below it carets under some of its characters. Both lines have a
margin of the same width. -/
def underscored (number : Int) (shown : List Char) (column length : Nat) : String :=
  toString number ++ " | " ++ String.ofList shown ++ "\n"
    ++ String.ofList (List.replicate ((toString number).length + 1) ' ') ++ "| "
    ++ String.ofList (List.replicate column ' ') ++ String.ofList (List.replicate length '^')

/-- The lines above the source line of a warning: its message, its place and a bar. -/
def Warning.heading (warning : Warning) (fileName : String) : String :=
  let margin := String.ofList (List.replicate ((toString warning.line).length + 1) ' ')
  "warning: " ++ warning.message ++ "\n"
    ++ margin ++ "--> " ++ fileName ++ ":" ++ toString warning.line ++ ":" ++ toString warning.column
    ++ "\n" ++ margin ++ "|\n"

/-- A warning is about some characters on a line, from a column on. -/
structure Warning.PointsAt (warning : Warning) (text : List Char) (number column : Nat) (line : Line)
    (run : List Char) : Prop where
  found : (Script.ofText text).lines[number]? = some line
  line_eq : warning.line = number + 1
  column_eq : warning.column = column + 1
  length_eq : warning.length = run.length
  nonempty : run ≠ []
  holds : line.Holds column run
  flagged : ∃ part ∈ (Script.ofText text).highlight, part.warning = true ∧
    warning = (Script.ofText text).warningFor part ∧
    part.start = line.start + column ∧ (Script.ofText text).slice part.start part.stop = run

/-! ## What a warning is about -/

/-- The characters of a part, which are no line ends. -/
lemma exists_run_of_part {text : List Char} {part : Part} (mem : part ∈ (Script.ofText text).highlight) :
    ∃ front run back, text = front ++ (run ++ back) ∧ part.start = front.length ∧
      part.stop = front.length + run.length ∧ run ≠ [] ∧ ∀ c ∈ run, isLineEnd c = false := by
  obtain ⟨piece, piece_mem, code, start, some_text, stop⟩ := exists_piece_of_part mem
  obtain ⟨rest, reads, _⟩ := exists_reads_of_mem_pieces piece_mem
  have bound : part.stop ≤ text.length := by
    have bound := stop_le_of_mem_placed piece_mem
    rw [Cursor.start_after_offset, ← length_eq_of_lexemes rfl] at bound
    exact Nat.le_trans stop bound
  have length : ((text.take part.stop).drop part.start).length = part.stop - part.start := by
    rw [List.length_drop, List.length_take_of_le bound]
  have front : (text.take part.start).length = part.start :=
    List.length_take_of_le (Nat.le_trans (Nat.le_of_lt some_text) bound)
  refine ⟨text.take part.start, (text.take part.stop).drop part.start, text.drop part.stop, ?_,
    front.symm, ?_, ?_, ?_⟩
  · have before : text.take part.start = (text.take part.stop).take part.start := by
      rw [List.take_take, Nat.min_eq_left (Nat.le_of_lt some_text)]
    rw [before, ← List.append_assoc, List.take_append_drop, List.take_append_drop]
  · rw [front, length]
    omega
  · apply List.ne_nil_of_length_pos
    rw [length]
    exact Nat.sub_pos_of_lt some_text
  · intro c c_mem
    obtain ⟨inside, at_inside⟩ := List.mem_iff_getElem?.1 c_mem
    have inside_lt : inside < part.stop - part.start := by
      rw [← length]
      exact (List.getElem?_eq_some_iff.1 at_inside).1
    have covers : part.start + inside ∈ Set.Ico piece.start piece.stop :=
      ⟨Nat.le_add_right_of_le start, by omega⟩
    obtain ⟨d, d_mem, at_offset⟩ := exists_char_at piece_mem covers
    rw [List.getElem?_drop, List.getElem?_take_of_lt (by omega), at_offset] at at_inside
    obtain rfl := Option.some.inj at_inside
    exact (Bool.or_eq_false_iff.1 (reads.not_space_of_mem code d_mem)).2

/-- The warning about a part points at the characters of the part. -/
lemma exists_pointsAt_of_part {text : List Char} {part : Part}
    (mem : part ∈ (Script.ofText text).highlight) (warns : part.warning = true) :
    ∃ line, ((Script.ofText text).warningFor part).PointsAt text
      ((Script.ofText text).position part.start).line ((Script.ofText text).position part.start).column
      line ((Script.ofText text).slice part.start part.stop) := by
  obtain ⟨front, run, back, parts, start, stop, some_run, no_end⟩ := exists_run_of_part mem
  obtain ⟨line, found, place, holds⟩ := exists_line_of_run parts some_run no_end
  have characters : (Script.ofText text).slice part.start part.stop = run := by
    rw [start, stop]
    exact slice_between parts
  rw [← start] at found place holds
  rw [← characters] at some_run holds
  refine ⟨line, found, rfl, rfl, ?_, some_run, holds, part, mem, warns, rfl, place.symm, rfl⟩
  rw [Script.warningFor, characters]
  dsimp only
  omega

/-- Every warning points at a run on a line. -/
lemma exists_pointsAt {text : List Char} {warning : Warning}
    (mem : warning ∈ (Script.ofText text).warnings) :
    ∃ number column line run, warning.PointsAt text number column line run := by
  obtain ⟨part, part_mem, rfl⟩ := List.mem_map.1 mem
  obtain ⟨part_mem, warns⟩ := List.mem_filter.1 part_mem
  obtain ⟨line, points⟩ := exists_pointsAt_of_part part_mem warns
  exact ⟨_, _, line, _, points⟩

/-! ## Broken lines -/

/-- A break ends a line. -/
lemma brokenLines_break {c : Char} {rest : List Char} (breaks : isLineBreak c = true)
    (no_pair : ¬ (c = '\r' ∧ rest.head? = some '\n')) :
    brokenLines (c :: rest) = [c] :: brokenLines rest := by
  rw [brokenLines, if_pos breaks]
  rintro behind rfl rfl
  exact no_pair ⟨rfl, rfl⟩

/-- Another character goes to the first line. -/
lemma brokenLines_plain {c : Char} (inside : isLineBreak c = false) (rest : List Char) :
    brokenLines (c :: rest)
      = (c :: (brokenLines rest).head?.getD []) :: (brokenLines rest).tail := by
  rw [brokenLines, if_neg (ne_true_of_eq_false inside)]
  · cases brokenLines rest with
    | nil => rfl
    | cons line more => rfl
  · rintro behind rfl
    cases inside

/-- Without the first character, whole lines are whole. -/
lemma WholeLines.of_cons {c : Char} {rest : List Char} (whole : WholeLines (c :: rest)) :
    WholeLines rest := by
  intro d mem
  apply whole
  rw [List.getLast?_cons, Option.mem_def.1 mem]
  rfl

/-- The last character of whole lines is a line feed, so a break at the end is one. -/
lemma WholeLines.some_rest {c : Char} {rest : List Char} (whole : WholeLines (c :: rest))
    (other : c ≠ '\n') : ∃ d more, rest = d :: more := by
  cases rest with
  | nil => exact absurd (whole c rfl) other
  | cons d more => exact ⟨d, more, rfl⟩

/-- A text that is not empty has a line. -/
lemma brokenLines_ne_nil (c : Char) (rest : List Char) : brokenLines (c :: rest) ≠ [] := by
  by_cases pair : c = '\r' ∧ rest.head? = some '\n'
  · obtain ⟨rfl, head⟩ := pair
    obtain ⟨more, rfl⟩ := List.head?_eq_some_iff.1 head
    exact List.cons_ne_nil _ _
  · cases breaks : isLineBreak c with
    | true =>
      rw [brokenLines_break breaks pair]
      exact List.cons_ne_nil _ _
    | false =>
      rw [brokenLines_plain breaks]
      exact List.cons_ne_nil _ _

/-- Nothing goes on over the end of whole lines. -/
lemma brokenLines_append {text : List Char} (whole : WholeLines text) (back : List Char) :
    brokenLines (text ++ back) = brokenLines text ++ brokenLines back := by
  fun_induction brokenLines text with
  | case1 => rfl
  | case2 rest ih => exact congrArg _ (ih whole.of_cons.of_cons)
  | case3 c rest no_pair breaks ih =>
    -- A carriage return at the end of `text` could pair with `back`, but `text` ends in a line feed.
    rw [List.cons_append, brokenLines_break breaks, ih whole.of_cons, List.cons_append]
    rintro ⟨rfl, head⟩
    obtain ⟨d, more, rfl⟩ := whole.some_rest (by decide)
    obtain rfl := Option.some.inj head
    exact no_pair more rfl rfl
  | case4 c rest no_pair inside nothing ih =>
    obtain ⟨d, more, rfl⟩ := whole.some_rest fun feed => inside (feed ▸ rfl)
    exact absurd nothing (brokenLines_ne_nil d more)
  | case5 c rest no_pair inside line more first ih =>
    rw [List.cons_append, brokenLines_plain (Bool.eq_false_iff.2 inside), ih whole.of_cons, first]
    rfl

/-- Whole lines have as many broken lines as they have line feeds and stray breaks. -/
lemma length_brokenLines {text : List Char} (whole : WholeLines text) :
    (brokenLines text).length = text.count '\n' + strayBreaks text := by
  fun_induction brokenLines text with
  | case1 => rfl
  | case2 rest ih =>
    rw [List.length_cons, ih whole.of_cons.of_cons, List.count_cons_of_ne (by decide),
      List.count_cons_self]
    exact Nat.add_right_comm _ _ _
  | case3 c rest no_pair breaks ih =>
    rw [List.length_cons, ih whole.of_cons, strayBreaks]
    by_cases feed : c = '\n'
    · rw [feed, List.count_cons_self]
      exact Nat.add_right_comm _ _ _
    · have stray : isStray c rest = true := by
        rw [isStray, breaks, Bool.true_and, Bool.and_eq_true, bne_iff_ne, Bool.not_eq_true',
          Bool.and_eq_false_iff, beq_eq_false_iff_ne, beq_eq_false_iff_ne]
        refine ⟨feed, not_and_or.1 ?_⟩
        rintro ⟨returned, head⟩
        obtain ⟨d, more, rfl⟩ := whole.some_rest feed
        obtain rfl := Option.some.inj head
        exact no_pair more returned rfl
      rw [if_pos stray, List.count_cons_of_ne feed, Nat.add_assoc]
  | case4 c rest no_pair inside nothing ih =>
    obtain ⟨d, more, rfl⟩ := whole.some_rest fun feed => inside (feed ▸ rfl)
    exact absurd nothing (brokenLines_ne_nil d more)
  | case5 c rest no_pair inside line more first ih =>
    have feed : c ≠ '\n' := fun feed => inside (feed ▸ rfl)
    have no_stray : isStray c rest = false := by
      rw [isStray, Bool.eq_false_iff.2 inside]
      rfl
    rw [List.length_cons, ← List.length_cons, ← first, ih whole.of_cons, strayBreaks,
      List.count_cons_of_ne feed, no_stray]
    rfl

/-- The first broken line of a text. -/
def firstBroken (text : List Char) : List Char :=
  (brokenLines text).head?.getD []

/-- What has no break goes to the first line. -/
lemma firstBroken_append {front : List Char} (inside : ∀ c ∈ front, isLineBreak c = false)
    (rest : List Char) : firstBroken (front ++ rest) = front ++ firstBroken rest := by
  induction front with
  | nil => rfl
  | cons c front ih =>
    obtain ⟨first, others⟩ := List.forall_mem_cons.1 inside
    rw [List.cons_append, firstBroken, brokenLines_plain first, List.cons_append, ← ih others]
    rfl

/-- A break is the first broken line by itself, or with the line feed behind it. -/
lemma firstBroken_break {c : Char} (breaks : isLineBreak c = true) (rest : List Char) :
    firstBroken (c :: rest) = [c] ∨ c = '\r' ∧ firstBroken (c :: rest) = ['\r', '\n'] := by
  by_cases pair : c = '\r' ∧ rest.head? = some '\n'
  · obtain ⟨rfl, head⟩ := pair
    obtain ⟨more, rfl⟩ := List.head?_eq_some_iff.1 head
    exact .inr ⟨rfl, rfl⟩
  · rw [firstBroken, brokenLines_break breaks pair]
    exact .inl rfl

/-! ## The line that is shown -/

/-- A trailing character is dropped. -/
lemma dropTrailing_concat (c : Char) (text : List Char) :
    dropTrailing c (text ++ [c]) = dropTrailing c text :=
  List.rdropWhile_concat_pos _ _ _ (beq_self_eq_true c)

/-- A character that does not trail is not dropped. -/
lemma dropTrailing_of_ne {c : Char} {text : List Char} (other : text.getLast? ≠ some c) :
    dropTrailing c text = text := by
  rcases List.eq_nil_or_concat text with rfl | ⟨front, d, rfl⟩
  · rfl
  · rw [List.concat_eq_append, List.getLast?_concat] at other
    rw [List.concat_eq_append]
    refine List.rdropWhile_concat_neg _ _ _ fun same => other ?_
    rw [beq_iff_eq.1 same]

section
variable {text : List Char} (no_feed : text.getLast? ≠ some '\n') (no_return : text.getLast? ≠ some '\r')
include no_feed no_return

/-- A line without a break is shown as it is. -/
lemma shownLine_self : shownLine text = text := by
  rw [shownLine, dropTrailing_of_ne no_feed, dropTrailing_of_ne no_return]

/-- A line feed is not shown. -/
lemma shownLine_feed : shownLine (text ++ ['\n']) = text := by
  rw [shownLine, dropTrailing_concat]
  exact shownLine_self no_feed no_return

omit no_feed in
/-- A carriage return is not shown. -/
lemma shownLine_return : shownLine (text ++ ['\r']) = text := by
  have no_feed : (text ++ ['\r']).getLast? ≠ some '\n' := by
    rw [List.getLast?_concat]
    decide
  rw [shownLine, dropTrailing_of_ne no_feed, dropTrailing_concat, dropTrailing_of_ne no_return]

omit no_feed in
/-- A carriage return and a line feed are not shown. -/
lemma shownLine_pair : shownLine (text ++ ['\r', '\n']) = text := by
  rw [List.append_cons, shownLine, dropTrailing_concat]
  exact shownLine_return no_return

end

/-- A line without breaks does not end with one. -/
lemma getLast?_ne_of_inside {text : List Char} (inside : ∀ c ∈ text, isLineBreak c = false) {c : Char}
    (breaks : isLineBreak c = true) : text.getLast? ≠ some c := by
  intro last
  rw [inside c (List.mem_of_getLast? last)] at breaks
  cases breaks

/-- What ends a line is not shown. -/
lemma shown_ending {front ending below : List Char} (inside : ∀ c ∈ front, isLineBreak c = false)
    (ends : ending = [] ∨ ending = ['\r']) (next : below = [] ∨ ∃ rest, below = '\n' :: rest) :
    shownLine (firstBroken (front ++ (ending ++ below))) = front := by
  have no_feed := getLast?_ne_of_inside inside (show isLineBreak '\n' = true by rfl)
  have no_return := getLast?_ne_of_inside inside (show isLineBreak '\r' = true by rfl)
  rw [firstBroken_append inside]
  rcases ends with rfl | rfl
  · rcases next with rfl | ⟨rest, rfl⟩
    · rw [show firstBroken ([] ++ []) = [] from rfl, List.append_nil]
      exact shownLine_self no_feed no_return
    · rw [show firstBroken ([] ++ '\n' :: rest) = ['\n'] from rfl]
      exact shownLine_feed no_feed no_return
  · rcases next with rfl | ⟨rest, rfl⟩
    · rw [show firstBroken (['\r'] ++ []) = ['\r'] from rfl]
      exact shownLine_return no_return
    · rw [show firstBroken (['\r'] ++ '\n' :: rest) = ['\r', '\n'] from rfl]
      exact shownLine_pair no_return

/-- A line that is broken at a carriage return is shown up to it; one that is broken elsewhere is shown
with its break. -/
lemma shown_break {front : List Char} (inside : ∀ c ∈ front, isLineBreak c = false) {c : Char}
    (breaks : isLineBreak c = true) (no_feed : c ≠ '\n') (rest : List Char) :
    shownLine (firstBroken (front ++ c :: rest)) = if c = '\r' then front else front ++ [c] := by
  have no_return := getLast?_ne_of_inside inside (show isLineBreak '\r' = true by rfl)
  rw [firstBroken_append inside]
  split
  · rename_i returned
    rcases firstBroken_break breaks rest with first | ⟨_, first⟩
    · rw [first, returned]
      exact shownLine_return no_return
    · rw [first]
      exact shownLine_pair no_return
  · rename_i not_returned
    rcases firstBroken_break breaks rest with first | ⟨returned, _⟩
    · rw [first]
      apply shownLine_self
      · rw [List.getLast?_concat]
        exact fun same => no_feed (Option.some.inj same)
      · rw [List.getLast?_concat]
        exact fun same => not_returned (Option.some.inj same)
    · exact absurd returned not_returned

/-- A line is shown as it is if and only if it is not broken. -/
lemma shown_eq_iff {line : Line} (no_newline : '\n' ∉ line.row) {below : List Char}
    (next : below = [] ∨ ∃ rest, below = '\n' :: rest) :
    shownLine (firstBroken (line.row ++ below)) = line.text ↔ Unbroken line.text := by
  have ends : line.ending = [] ∨ line.ending = ['\r'] := by
    rcases line.text_ending_cases with ⟨_, ending⟩ | ⟨_, _, ending⟩
    · exact .inr ending
    · exact .inl ending
  have text_mem : ∀ c ∈ line.text, c ≠ '\n' := by
    rintro c mem rfl
    rw [← line.text_append_ending] at no_newline
    exact no_newline (List.mem_append_left _ mem)
  rw [← line.text_append_ending, List.append_assoc]
  -- The line is cut before its first break.
  have split := List.takeWhile_append_dropWhile (p := fun c => !isLineBreak c) (l := line.text)
  have inside : ∀ c ∈ line.text.takeWhile fun c => !isLineBreak c, isLineBreak c = false :=
    fun c mem => by simpa using List.mem_takeWhile_imp mem
  generalize line.text.takeWhile (fun c => !isLineBreak c) = front at split inside
  cases behind : line.text.dropWhile fun c => !isLineBreak c with
  | nil =>
    rw [behind, List.append_nil] at split
    rw [← split]
    refine ⟨fun _ => ⟨fun c mem => inside c (List.dropLast_subset _ mem), ?_⟩, fun _ => ?_⟩
    · exact getLast?_ne_of_inside inside rfl
    · exact shown_ending inside ends next
  | cons c more =>
    have breaks : isLineBreak c = true := by
      have first := List.head?_dropWhile_not (fun c => !isLineBreak c) line.text
      rw [behind] at first
      simpa using first
    rw [behind] at split
    have no_feed : c ≠ '\n' :=
      text_mem c (split ▸ List.mem_append_right _ List.mem_cons_self)
    rw [← split, List.append_assoc, List.cons_append, shown_break inside breaks no_feed]
    cases more with
    | nil =>
      rw [Unbroken, List.dropLast_concat, List.getLast?_concat]
      split
      · rename_i returned
        refine ⟨fun same => ?_, fun unbroken => absurd (congrArg some returned) unbroken.2⟩
        cases List.self_eq_append_right.1 same
      · rename_i not_returned
        exact ⟨fun _ => ⟨inside, fun same => not_returned (Option.some.inj same)⟩, fun _ => rfl⟩
    | cons d more =>
      refine ⟨fun same => ?_, fun unbroken => ?_⟩
      · have lengths := congrArg List.length same
        rw [List.length_append, List.length_cons, List.length_cons] at lengths
        split at lengths
        · omega
        · rw [List.length_append, List.length_singleton] at lengths
          omega
      · have mem : c ∈ (front ++ c :: d :: more).dropLast := by
          rw [List.dropLast_append_of_ne_nil (List.cons_ne_nil _ _), List.dropLast_cons_cons]
          exact List.mem_append_right _ List.mem_cons_self
        rw [unbroken.1 c mem] at breaks
        cases breaks

/-! ## The snippet of a warning -/

namespace Warning.PointsAt
variable {warning : Warning} {text : List Char} {number column : Nat} {line : Line} {run : List Char}
  (points : warning.PointsAt text number column line run)
include points

/-- The number of a line is one less than is told. -/
lemma toNat_line : (warning.line - 1).toNat = number := by
  rw [points.line_eq]
  omega

/-- A column is one less than is told. -/
lemma toNat_column : (warning.column - 1).toNat = column := by
  rw [points.column_eq]
  omega

/-- The line that is shown is the one with the number. -/
lemma sourceLine_eq :
    warning.sourceLine text = shownLine ((brokenLines text)[number]?.getD []) := by
  have positive : 1 ≤ warning.line := by
    rw [points.line_eq]
    omega
  rw [sourceLine, if_pos positive, points.toNat_line]

/-- The text above the line that a warning is about, and the broken lines of the whole text. -/
lemma exists_below :
    ∃ below, (below = [] ∨ ∃ rest, below = '\n' :: rest) ∧
      brokenLines text = brokenLines (textAbove text number) ++ brokenLines (line.row ++ below) ∧
      (brokenLines (textAbove text number)).length = number + strayBreaks (textAbove text number) := by
  obtain ⟨below, stands⟩ := exists_standsIn points.found
  refine ⟨below, stands.rest_cases, ?_, ?_⟩
  · rw [← brokenLines_append stands.whole, ← stands.parts]
  · rw [length_brokenLines stands.whole, count_textAbove points.found]

/-- Below lines without a stray break, the line is shown as it is if and only if it is not broken. -/
lemma sourceLine_iff (no_stray : strayBreaks (textAbove text number) = 0) :
    warning.sourceLine text = line.text ↔ Unbroken line.text := by
  obtain ⟨below, next, broken, length⟩ := points.exists_below
  rw [no_stray, Nat.add_zero] at length
  have first : (brokenLines text)[number]?.getD [] = firstBroken (line.row ++ below) := by
    rw [broken, List.getElem?_append_right (Nat.le_of_eq length), length, Nat.sub_self, firstBroken,
      List.head?_eq_getElem?]
  rw [points.sourceLine_eq, first]
  exact shown_eq_iff (no_newline_of_mem_lines (List.mem_of_getElem? points.found)) next

/-- Below a stray break, one of the lines above is shown. -/
lemma sourceLine_above (stray : strayBreaks (textAbove text number) ≠ 0) :
    ∃ broken ∈ brokenLines (textAbove text number), warning.sourceLine text = shownLine broken := by
  obtain ⟨below, _, broken, length⟩ := points.exists_below
  have bound : number < (brokenLines (textAbove text number)).length := by omega
  refine ⟨_, List.getElem_mem bound, ?_⟩
  rw [points.sourceLine_eq, broken, List.getElem?_append_left bound, List.getElem?_eq_getElem bound]
  rfl

/-- Where the line is shown as it is, the carets are as many as the characters that are flagged. -/
lemma underline_eq (shown : warning.sourceLine text = line.text) :
    warning.underline text = run.length := by
  have bound := points.holds.length_le
  have some_run := List.length_pos_iff.2 points.nonempty
  rw [underline, shown, points.length_eq, points.column_eq]
  omega

/-- Where the line is shown, the run is underscored in it. -/
lemma render_eq (shown : warning.sourceLine text = line.text) (fileName : String) :
    warning.render fileName text
      = warning.heading fileName ++ underscored warning.line line.text column run.length := by
  unfold render heading underscored
  rw [points.underline_eq shown, shown, points.toNat_column]
  dsimp only
  simp only [String.append_assoc]

end Warning.PointsAt

/-- If no break above its line is stray, a warning shows the line with carets right under its
characters, if and only if the line is not broken. Otherwise it shows a broken line above. -/
theorem snippet_of_warning (text : List Char) (fileName : String) {warning : Warning}
    (mem : warning ∈ (Script.ofText text).warnings) :
    ∃ number column line run, warning.PointsAt text number column line run ∧
      (strayBreaks (textAbove text number) = 0 →
        (warning.sourceLine text = line.text ↔ Unbroken line.text) ∧
        (Unbroken line.text → warning.render fileName text
          = warning.heading fileName ++ underscored warning.line line.text column run.length)) ∧
      (strayBreaks (textAbove text number) ≠ 0 →
        ∃ broken ∈ brokenLines (textAbove text number), warning.sourceLine text = shownLine broken) := by
  obtain ⟨number, column, line, run, points⟩ := exists_pointsAt mem
  refine ⟨number, column, line, run, points, fun no_stray => ?_, points.sourceLine_above⟩
  have shown := points.sourceLine_iff no_stray
  exact ⟨shown, fun unbroken => points.render_eq (shown.2 unbroken) fileName⟩

/-- A text with a form feed in its second line. -/
def pagedText : List Char := "@Nix\n\x0c@Foo\n @Bar".toList

/-- The form feed takes the second line apart, and shows what stands above for the third. -/
theorem snippets_of_pagedText :
    ∃ above inside below, (Script.ofText pagedText).warnings = [above, inside, below] ∧
      above.render "a.kix" pagedText
        = above.heading "a.kix" ++ underscored above.line "@Nix".toList 0 4 ∧
      inside.sourceLine pagedText ≠ "\x0c@Foo".toList ∧
      ∃ broken ∈ brokenLines "@Nix\n\x0c@Foo\n".toList,
        below.sourceLine pagedText = shownLine broken := by
  have listed : (Script.ofText pagedText).warnings
      = [⟨"unknown macro '@Nix' evaluates to 0", 1, 1, 4⟩,
        ⟨"unknown macro '@Foo' evaluates to 0", 2, 2, 4⟩,
        ⟨"unknown macro '@Bar' evaluates to 0", 3, 2, 4⟩] := by
    decide +kernel
  have lines : (Script.ofText pagedText).lines
      = [⟨0, "@Nix".toList⟩, ⟨5, "\x0c@Foo".toList⟩, ⟨11, " @Bar".toList⟩] := by
    decide +kernel
  refine ⟨_, _, _, listed, ?_, ?_, ?_⟩
  · obtain ⟨number, column, line, run, points, shown, _⟩ :=
      snippet_of_warning pagedText "a.kix" (listed ▸ List.mem_cons_self)
    obtain rfl : 0 = number := points.toNat_line
    obtain rfl : 0 = column := points.toNat_column
    have length : 4 = run.length := Int.ofNat.inj points.length_eq
    have found := points.found
    rw [lines] at found
    obtain rfl := Option.some.inj found
    have plain : "@Nix".toList.dropLast.all (fun c => !isLineBreak c) = true := by decide
    have unbroken : Unbroken "@Nix".toList :=
      ⟨fun c mem => by simpa using List.all_eq_true.1 plain c mem, by decide⟩
    rw [length]
    exact (shown (by decide +kernel)).2 unbroken
  · obtain ⟨number, column, line, run, points, shown, _⟩ :=
      snippet_of_warning pagedText "a.kix" (listed ▸ List.mem_cons_of_mem _ List.mem_cons_self)
    obtain rfl : 1 = number := points.toNat_line
    have found := points.found
    rw [lines] at found
    obtain rfl := Option.some.inj found
    have broken : ¬ Unbroken "\x0c@Foo".toList := fun unbroken =>
      absurd (unbroken.1 '\x0c' (by decide)) (by decide)
    exact fun same => broken ((shown (by decide +kernel)).1.1 same)
  · obtain ⟨number, column, line, run, points, _, hidden⟩ :=
      snippet_of_warning pagedText "a.kix"
        (listed ▸ List.mem_cons_of_mem _ (List.mem_cons_of_mem _ List.mem_cons_self))
    obtain rfl : 2 = number := points.toNat_line
    exact hidden (by decide +kernel)

end KixScript

import KixScript.Layout
import KixScript.Proofs.Resumption
import Mathlib.Data.List.Induction

/-!
# What is known above a line

A line is placed against a block keyword above it, by the number of that keyword's line and the depth
of parentheses where that line begins. Both are known when the keyword is read. So the place of a
line follows from what has been gathered on the way down to it (`survey`), without any offset, and
from its own text behind the blanks (`planLine_congr`).
-/

namespace KixScript

/-- A block keyword as a line is placed against it: by the number of its line, and by the depth of
parentheses where that line begins. -/
structure Landmark where
  keyword : Keyword
  line : Nat
  depth : Nat
  deriving DecidableEq, Repr

/-- The landmark that a keyword in its place is. -/
def Script.landmark (script : Script) (found : Occurrence) : Landmark :=
  let line := script.lineOf found.start
  ⟨found.keyword, line, (script.contextAt (script.lineStart line)).depth⟩

/-- The groups of parentheses behind a lexeme, from the innermost outwards, where `found` is added by
a word. -/
def regroup {α : Type} (found : List α) : Lexeme → List (List α) → List (List α)
  | .word _, group :: outer => (found ++ group) :: outer
  | .opening, groups => [] :: groups
  | .closing, _ :: outer :: more => outer :: more
  | _, groups => groups

/-- What is known behind some lexemes. -/
structure Survey where
  /-- The number of the line that goes on here. -/
  line : Nat
  /-- The depth of parentheses where that line begins. -/
  margin : Nat
  /-- The depth of parentheses here. -/
  depth : Nat
  /-- Whether a `.` directly precedes. -/
  afterDot : Bool
  /-- The keywords in sight, group by group, nearest first. -/
  groups : List (List Landmark)
  deriving DecidableEq, Repr

namespace Survey

/-- Before any lexeme. -/
def start : Survey :=
  { line := 0, margin := 0, depth := 0, afterDot := false, groups := [[]] }

/-- The landmark that a lexeme is, if it is one. -/
def found (survey : Survey) : Lexeme → List Landmark
  | .word text =>
    ((if survey.afterDot then none else Keyword.ofText? text).map fun keyword =>
      ⟨keyword, survey.line, survey.margin⟩).toList
  | _ => []

/-- What is known behind one more lexeme. -/
def advance (survey : Survey) (lexeme : Lexeme) : Survey :=
  let depth := Cursor.depthAfter survey.depth lexeme
  { line := survey.line + lexeme.text.count '\n'
    margin := if lexeme.text.contains '\n' then depth else survey.margin
    depth
    afterDot := lexeme.text.getLast? == some '.'
    groups := regroup (survey.found lexeme) lexeme survey.groups }

end Survey

/-- What is known behind some lexemes, with nothing before them. -/
def survey (lexemes : List Lexeme) : Survey :=
  lexemes.foldl Survey.advance .start

/-- A survey goes on behind the first lexemes. -/
lemma survey_append (before behind : List Lexeme) :
    survey (before ++ behind) = behind.foldl Survey.advance (survey before) :=
  List.foldl_append

/-- A survey goes on by one lexeme. -/
lemma survey_concat (before : List Lexeme) (lexeme : Lexeme) :
    survey (before ++ [lexeme]) = (survey before).advance lexeme :=
  survey_append before [lexeme]

/-- A survey counts the line feeds. -/
lemma line_survey (lexemes : List Lexeme) :
    (survey lexemes).line = (written lexemes).count '\n' := by
  induction lexemes using List.reverseRecOn with
  | nil => rfl
  | append_singleton before lexeme ih =>
    rw [survey_concat, Survey.advance, ih, written_append, written_cons, written_nil, List.append_nil,
      List.count_append]

/-- A survey knows the depth. -/
lemma depth_survey (lexemes : List Lexeme) :
    (survey lexemes).depth = (Cursor.start.after lexemes).depth := by
  induction lexemes using List.reverseRecOn with
  | nil => rfl
  | append_singleton before lexeme ih =>
    rw [survey_concat, Survey.advance, ih, Cursor.after_append]
    rfl

/-- A survey knows of a dot before it. -/
lemma afterDot_survey (lexemes : List Lexeme) :
    (survey lexemes).afterDot = (Cursor.start.after lexemes).afterDot := by
  induction lexemes using List.reverseRecOn with
  | nil => rfl
  | append_singleton before lexeme ih =>
    rw [survey_concat, Cursor.after_append]
    rfl

/-- A blank that follows no dot changes nothing. -/
lemma Survey.advance_blank {known : Survey} (no_dot : known.afterDot = false) {c : Char}
    (blank : isBlank c = true) : known.advance (.space c) = known := by
  have two : c = ' ' ∨ c = '\t' := by simpa [isBlank] using blank
  obtain ⟨line, margin, depth, afterDot, groups⟩ := known
  obtain rfl : afterDot = false := no_dot
  rcases two with rfl | rfl
  · rfl
  · rfl

/-- Blanks tell nothing, unless they stand behind a `.`. -/
lemma survey_blanks {before : List Lexeme} (no_dot : (survey before).afterDot = false)
    {blanks : List Char} (blank : ∀ c ∈ blanks, isBlank c = true) :
    survey (before ++ blanks.map .space) = survey before := by
  induction blanks using List.reverseRecOn with
  | nil => rw [List.map_nil, List.append_nil]
  | append_singleton blanks c ih =>
    have ih := ih fun d mem => blank d (List.mem_append_left _ mem)
    have blank := blank c (List.mem_append_right _ List.mem_cons_self)
    rw [List.map_append, ← List.append_assoc, List.map_singleton, survey_concat, ih]
    exact Survey.advance_blank no_dot blank

/-! ## Where lines begin -/

section
variable {text : List Char} {before behind : List Lexeme}

/-- Inside of a string or block comment with line feeds, the last line of it begins. -/
lemma depth_lineStart_region {kind : RegionKind} {body : List Char} {closed : Bool}
    (joint : lexemes text = before ++ .region kind body closed :: behind)
    (no_line : kind ≠ .lineComment) {row₀ last : List Char} {above : List (List Char)}
    (split : body = (row₀ :: above).flatMap (· ++ ['\n']) ++ last) (no_newline : '\n' ∉ last) :
    ((Script.ofText text).contextAt ((Script.ofText text).lineStart
        ((written (before ++ [.region kind body closed])).count '\n'))).depth
      = (Cursor.start.after before).depth := by
  have reads := (lexemes_eq_iff.1 joint).1.reads
  have some_row : (row₀ :: above).flatMap (· ++ ['\n']) ≠ [] := by simp
  have whole : WholeLines (written before ++ (row₀ :: above).flatMap (· ++ ['\n'])) :=
    (wholeLines_flatMap _).append some_row _
  have count : (written (before ++ [.region kind body closed])).count '\n'
      = (written before ++ (row₀ :: above).flatMap (· ++ ['\n'])).count '\n' := by
    rw [written_append, written_cons, written_nil, List.append_nil, Lexeme.text, split,
      List.count_append, List.count_append, List.count_append, List.count_eq_zero.2 no_newline,
      Nat.add_zero]
  have parts : text = written before ++ (row₀ :: above).flatMap (· ++ ['\n'])
      ++ (last ++ written behind) := by
    rw [text_of_joint joint, Lexeme.text, split, List.append_assoc, List.append_assoc]
  have start := lineStart_of_whole whole (last ++ written behind)
  rw [← parts] at start
  have bound : ((row₀ :: above).flatMap (· ++ ['\n'])).length < body.length ∨
      closed = false ∧ ((row₀ :: above).flatMap (· ++ ['\n'])).length = body.length := by
    have length := congrArg List.length split
    rw [List.length_append] at length
    cases closed with
    | false =>
      rcases Nat.eq_zero_or_pos last.length with nothing | some_text
      · exact .inr ⟨rfl, by omega⟩
      · exact .inl (by omega)
    | true =>
      obtain ⟨front, c, rfl, _⟩ := exists_last_concat reads no_line split
      rw [List.length_append, List.length_singleton] at length
      exact .inl (by omega)
  rw [count, start, List.length_append,
    contextAt_inside joint (List.length_pos_iff.2 some_row) bound]

/-- The margin is the depth where the line begins that goes on here. -/
lemma margin_survey (joint : lexemes text = before ++ behind) :
    ((Script.ofText text).contextAt
        ((Script.ofText text).lineStart ((written before).count '\n'))).depth
      = (survey before).margin := by
  induction before using List.reverseRecOn generalizing behind with
  | nil =>
    have start := @lineStart_of_whole [] nofun text
    have context := contextAt_joint joint allClosed_nil
    rw [List.nil_append] at start
    rw [written_nil, start]
    exact congrArg Context.depth context
  | append_singleton before lexeme ih =>
    rw [List.append_assoc, List.singleton_append] at joint
    have ih := ih joint
    have stream := (lexemes_eq_iff.1 joint).1
    -- A lexeme without line feeds leaves the line as it is.
    have plain : '\n' ∉ lexeme.text →
        ((Script.ofText text).contextAt ((Script.ofText text).lineStart
          ((written (before ++ [lexeme])).count '\n'))).depth
          = (survey (before ++ [lexeme])).margin := by
      intro no_newline
      have nowhere : lexeme.text.contains '\n' = false := by simpa using no_newline
      rw [written_append, written_cons, written_nil, List.append_nil, List.count_append,
        List.count_eq_zero.2 no_newline, Nat.add_zero, ih, survey_concat, Survey.advance, nowhere]
      rfl
    rcases stream.reads.newlines with ⟨no_newline, _⟩ | ⟨ends, front, split, _⟩ |
      ⟨kind, body, closed, rfl, no_line⟩
    · exact plain no_newline
    · have newline : lexeme.text.contains '\n' = true := by simp [split]
      have whole : WholeLines (written (before ++ [lexeme])) := by
        intro c mem
        rw [written_append, written_cons, written_nil, List.append_nil, split] at mem
        simpa using mem.symm
      have joint' : lexemes text = (before ++ [lexeme]) ++ behind := by
        rw [joint, List.append_assoc, List.singleton_append]
      have closed : AllClosed (before ++ [lexeme]) := by
        refine allClosed_append.2 ⟨stream.allClosed (List.cons_ne_nil _ _), ?_⟩
        intro other mem
        rw [List.mem_singleton.1 mem]
        exact Lexeme.isOpen_of_selfEnding (Lexeme.selfEnding_of_endsLine ends)
      have start := lineStart_of_whole whole (written behind)
      rw [← written_append, (lexemes_eq_iff.1 joint').2] at start
      rw [start, contextAt_joint joint' closed, survey_concat, Survey.advance, newline, depth_survey,
        Cursor.after_append]
      rfl
    · obtain ⟨above, last, body_rows, split⟩ := exists_last_row body
      have no_newline : '\n' ∉ last := by
        apply @no_newline_of_mem_rows body
        rw [body_rows]
        exact List.mem_append_right _ List.mem_cons_self
      cases above with
      | nil =>
        obtain rfl : body = last := split
        exact plain no_newline
      | cons row₀ above =>
        have newline : (Lexeme.region kind body closed).text.contains '\n' = true := by
          simp [Lexeme.text, split]
        rw [depth_lineStart_region joint no_line split no_newline, survey_concat, Survey.advance,
          newline, depth_survey]
        rfl

/-! ## The keywords in sight -/

/-- To change what is found changes the groups. -/
lemma map_regroup {α β : Type} (f : α → β) (found : List α) (lexeme : Lexeme)
    (groups : List (List α)) :
    (regroup found lexeme groups).map (List.map f)
      = regroup (found.map f) lexeme (groups.map (List.map f)) := by
  cases lexeme with
  | word text =>
    cases groups with
    | nil => rfl
    | cons group outer => simp [regroup]
  | closing =>
    rcases groups with _ | ⟨group, _ | ⟨outer, more⟩⟩
    · rfl
    · rfl
    · rfl
  | _ => rfl

/-- To look at the atoms of a lexeme is to regroup what they are found to be. -/
lemma look_regroup (cursor : Cursor) (lexeme : Lexeme) (groups : List (List Occurrence)) :
    (looseAtoms cursor [lexeme]).foldl look groups
      = regroup ((looseAtoms cursor [lexeme]).filterMap Atom.occurrence?) lexeme groups := by
  cases lexeme with
  | word text =>
    obtain ⟨w, atoms, _⟩ := looseAtoms_word cursor text
    rw [atoms]
    cases groups with
    | nil => rfl
    | cons group outer =>
      rw [List.foldl_cons, List.foldl_nil, look, List.filterMap_cons, List.filterMap_nil]
      cases (Atom.word w).occurrence? <;> rfl
  | closing =>
    rcases groups with _ | ⟨group, _ | ⟨outer, more⟩⟩
    · rfl
    · rfl
    · rfl
  | opening => cases groups <;> rfl
  | _ => rfl

/-- A keyword is known as the landmark that it is. -/
lemma landmark_found {lexeme : Lexeme} (joint : lexemes text = before ++ lexeme :: behind) :
    ((looseAtoms (Cursor.start.after before) [lexeme]).filterMap Atom.occurrence?).map
        (Script.ofText text).landmark
      = (survey before).found lexeme := by
  cases lexeme with
  | word word =>
    have parts := text_of_joint joint
    have bound : (written before).length ≤ text.length := by
      rw [parts, List.length_append]
      omega
    have line : (Script.ofText text).lineOf (written before).length = (survey before).line := by
      rw [lineOf_eq_count text bound, line_survey, parts, List.take_left]
    have margin := margin_survey joint
    rw [← line_survey] at margin
    have keyword : (Cursor.start.after before).keyword? word
        = if (survey before).afterDot then none else Keyword.ofText? word := by
      rw [afterDot_survey]
      rfl
    have start : (Cursor.start.after before).offset = (written before).length :=
      Cursor.start_after_offset before
    simp only [looseAtoms, placed_cons, placed_nil, List.filterMap_cons, List.filterMap_nil,
      Piece.atom?, Piece.word?, Option.map_some, Atom.occurrence?, Survey.found, keyword, Piece.start,
      start]
    cases (if (survey before).afterDot then none else Keyword.ofText? word) with
    | none => rfl
    | some keyword =>
      simp only [Option.map_some, List.map_cons, List.map_nil, Option.toList_some, Script.landmark,
        line, margin]
  | _ => rfl

/-- The keywords in sight at a joint are known. -/
lemma groups_survey (joint : lexemes text = before ++ behind) :
    (sightBehind (looseAtoms .start before)).map (List.map (Script.ofText text).landmark)
      = (survey before).groups := by
  induction before using List.reverseRecOn generalizing behind with
  | nil => rfl
  | append_singleton before lexeme ih =>
    rw [List.append_assoc, List.singleton_append] at joint
    rw [looseAtoms_append, sightBehind, List.foldl_append, look_regroup, map_regroup,
      landmark_found joint, ← sightBehind, ih joint, survey_concat]
    rfl

/-- The keywords in sight are at the landmarks of the survey. -/
lemma landmarks_survey (joint : lexemes text = before ++ behind) :
    (sightBehind (looseAtoms .start before)).flatten.map (Script.ofText text).landmark
      = (survey before).groups.flatten := by
  rw [List.map_flatten, groups_survey joint]

end

/-- What is in a group has been found just now or before. -/
lemma mem_flatten_regroup {α : Type} {found : List α} {lexeme : Lexeme} {groups : List (List α)}
    {a : α} (mem : a ∈ (regroup found lexeme groups).flatten) : a ∈ found ∨ a ∈ groups.flatten := by
  cases lexeme with
  | word text =>
    cases groups with
    | nil => exact .inr mem
    | cons group outer =>
      rw [regroup, List.flatten_cons, List.append_assoc] at mem
      exact List.mem_append.1 mem
  | closing =>
    rcases groups with _ | ⟨group, _ | ⟨outer, more⟩⟩
    · exact .inr mem
    · exact .inr mem
    · exact .inr (List.mem_append_right group mem)
  | _ => exact .inr mem

/-- What is found is on the line of the survey. -/
lemma Survey.line_of_mem_found {known : Survey} {lexeme : Lexeme} {mark : Landmark}
    (mem : mark ∈ known.found lexeme) : mark.line = known.line := by
  cases lexeme with
  | word text =>
    obtain ⟨keyword, _, rfl⟩ := Option.map_eq_some_iff.1 (Option.mem_toList.1 mem)
    rfl
  | _ => cases mem

/-- What has been found is on no later line. -/
lemma line_le_of_mem {lexemes : List Lexeme} {mark : Landmark}
    (mem : mark ∈ (survey lexemes).groups.flatten) : mark.line ≤ (survey lexemes).line := by
  induction lexemes using List.reverseRecOn with
  | nil => cases mem
  | append_singleton before lexeme ih =>
    rw [survey_concat] at mem ⊢
    rcases mem_flatten_regroup mem with here | earlier
    · rw [Survey.line_of_mem_found here]
      exact Nat.le_add_right _ _
    · exact Nat.le_trans (ih earlier) (Nat.le_add_right _ _)

/-- What is in sight behind whole lines stands on one of them. -/
lemma Resumes.line_lt_of_mem {above : List Char} {before : List Lexeme}
    (resumes : Resumes above before []) (whole : WholeLines above) {mark : Landmark}
    (mem : mark ∈ (survey before).groups.flatten) : mark.line < above.count '\n' := by
  have split := resumes.reads_on []
  have same := resumes.written_append
  rw [List.append_nil, List.append_nil, lexemes_nil, List.append_nil] at split
  rw [List.append_nil] at same
  rw [← same, ← line_survey]
  rcases List.eq_nil_or_concat before with rfl | ⟨earlier, last, concat⟩
  · cases mem
  rw [List.concat_eq_append] at concat
  subst concat
  rcases endsLine_or_open whole split with ends | ⟨kind, body, rfl, _⟩
  · obtain ⟨newline, nothing⟩ : '\n' ∈ last.text ∧ (survey earlier).found last = [] := by
      rcases (lexemes_eq_iff.1 split).1.reads.newlines with
        ⟨_, no_end⟩ | ⟨_, front, concat, _⟩ | ⟨kind, body, closed, rfl, no_line⟩
      · rw [ends] at no_end
        cases no_end
      · refine ⟨concat ▸ List.mem_append_right front List.mem_cons_self, ?_⟩
        cases last with
        | word text => cases ends
        | _ => rfl
      · cases kind with
        | lineComment => exact absurd rfl no_line
        | _ => cases ends
    rw [survey_concat] at mem ⊢
    rcases mem_flatten_regroup mem with here | above_mem
    · rw [nothing] at here
      cases here
    · exact Nat.lt_of_le_of_lt (line_le_of_mem above_mem)
        (Nat.lt_add_of_pos_right (List.count_pos_iff.2 newline))
  · have closed := resumes.allClosed _ (List.mem_append_right earlier List.mem_cons_self)
    cases closed

end KixScript

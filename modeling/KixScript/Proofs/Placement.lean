import KixScript.Proofs.Nesting
import KixScript.Proofs.Survey

/-!
# Plans from what is known above

At the head of a line, the search for the block around it and the search for the opener of its
keyword walk over the keywords in sight. Both look at nothing but what the keywords are, so they come
to the same landmark wherever the same landmarks are in sight (`findOpener_congr`). A line with the
same text behind its blanks is then placed alike (`planLine_congr`), and always against a line above
it (`base_lt_of_planLine`).
-/

namespace KixScript

section
variable {script script' : Script} {seen seen' : List Occurrence}

/-- Among keywords at the same landmarks, an opener at the same landmark is found. -/
lemma findOpener_congr (same : seen.map script.landmark = seen'.map script'.landmark)
    (seeded : Bool) (waiting : List Keyword) :
    (findOpener seeded waiting seen).map script.landmark
      = (findOpener seeded waiting seen').map script'.landmark :=
  findOpener_views same Landmark.keyword (fun _ => rfl) (fun _ => rfl) seeded waiting

/-- The keyword that a line is placed against, of those in sight, and the levels by which it goes to
the right of that keyword's line. `lead` is the keyword at the head of the line. -/
def alignmentIn (lead : Option Keyword) (seen : List Occurrence) : Option (Occurrence × Nat) :=
  let inside := (findOpener false [] seen).map fun opener => (opener, 1)
  match lead with
  | none => inside
  | some keyword =>
    if keyword.closes then
      match findOpener true [keyword] seen with
      | some opener => some (opener, 0)
      | none =>
        (findOpener false [] seen).map fun opener =>
          (opener, if opener.keyword.closers.contains keyword then 0 else 1)
    else inside

/-- Among keywords at the same landmarks, alignment is with the same landmark. -/
lemma alignmentIn_congr (same : seen.map script.landmark = seen'.map script'.landmark)
    (lead : Option Keyword) :
    (alignmentIn lead seen).map (Prod.map script.landmark id)
      = (alignmentIn lead seen').map (Prod.map script'.landmark id) := by
  have around := findOpener_congr same false []
  -- The levels depend on the keyword alone, which is part of the landmark.
  have inside : ∀ levels : Keyword → Nat,
      ((findOpener false [] seen).map fun opener => (opener, levels opener.keyword)).map
          (Prod.map script.landmark id)
        = ((findOpener false [] seen').map fun opener => (opener, levels opener.keyword)).map
          (Prod.map script'.landmark id) := by
    intro levels
    have marked := congrArg (Option.map fun mark : Landmark => (mark, levels mark.keyword)) around
    rw [Option.map_map, Option.map_map] at marked ⊢
    exact marked
  cases lead with
  | none => exact inside fun _ => 1
  | some keyword =>
    rw [alignmentIn, alignmentIn]
    split
    · have own := findOpener_congr same true [keyword]
      cases first : findOpener true [keyword] seen with
      | none =>
        rw [first] at own
        rw [Option.map_eq_none_iff.1 own.symm]
        exact inside fun other => if other.closers.contains keyword then 0 else 1
      | some opener =>
        rw [first, Option.map_some] at own
        obtain ⟨opener', second, mark⟩ := Option.map_eq_some_iff.1 own.symm
        rw [second]
        exact congrArg (fun mark => some (mark, 0)) mark.symm
    · exact inside fun _ => 1

/-- Alignment is with a keyword in sight. -/
lemma mem_of_alignmentIn {lead : Option Keyword} {opener : Occurrence} {levels : Nat}
    (aligned : alignmentIn lead seen = some (opener, levels)) : opener ∈ seen := by
  have inside : ∀ levels' : Occurrence → Nat,
      (findOpener false [] seen).map (fun opener => (opener, levels' opener)) = some (opener, levels) →
      opener ∈ seen := by
    intro levels' aligned
    obtain ⟨opener', finds, same⟩ := Option.map_eq_some_iff.1 aligned
    rw [← (Prod.mk.inj same).1]
    exact mem_of_findOpener finds
  cases lead with
  | none => exact inside _ aligned
  | some keyword =>
    rw [alignmentIn] at aligned
    split at aligned
    · cases first : findOpener true [keyword] seen with
      | none =>
        rw [first] at aligned
        exact inside _ aligned
      | some opener' =>
        rw [first] at aligned
        rw [← (Prod.mk.inj (Option.some.inj aligned)).1]
        exact mem_of_findOpener first
    · exact inside _ aligned

end

/-- How to place a line in code against a landmark, where parentheses are `depth` deep. -/
def planAgainst (depth : Nat) (aligned : Option (Landmark × Nat)) : Plan :=
  aligned.elim (.indent none depth) fun found =>
    .indent (some found.1.line) (depth - found.1.depth + found.2)

section
variable {text : List Char} {before : List Lexeme} {rest : List Char}

/-- The keyword at the head of a text is spelled by its longest run of word characters. -/
lemma keywordAt_head (joint : lexemes text = before ++ lexemes rest)
    (no_dot : (Cursor.start.after before).afterDot = false) :
    (Script.ofText text).keywordAt (written before).length
      = (Keyword.ofText? (rest.takeWhile isWordChar)).map fun keyword =>
          ⟨keyword, (written before).length,
            (written before).length + (rest.takeWhile isWordChar).length⟩ := by
  have keyword : ∀ word, (Cursor.start.after before).keyword? word = Keyword.ofText? word := by
    intro word
    rw [Cursor.keyword?, no_dot]
    rfl
  cases rest with
  | nil =>
    rw [lexemes_nil] at joint
    rw [keywordAt_eq_none joint fun _ _ first => absurd first.symm (List.cons_ne_nil _ _)]
    rfl
  | cons c more =>
    cases word_char : isWordChar c with
    | true =>
      rw [lexemes_cons, Lexeme.first_word word_char] at joint
      have some_text : 0 < (c :: more.takeWhile isWordChar).length := Nat.succ_pos _
      rw [keywordAt_word joint (Int.le_refl _) (by omega), keyword,
        List.takeWhile_cons_of_pos word_char]
    | false =>
      have no_word : ∀ word others, lexemes (c :: more) = .word word :: others →
          (Cursor.start.after before).keyword? word = none := by
        intro word others first
        obtain ⟨stream, same⟩ := lexemes_eq_iff.1 first
        obtain ⟨some_text, word_chars, _⟩ := @Stream.reads [] others _ stream
        obtain ⟨d, text', rfl⟩ := List.exists_cons_of_ne_nil some_text
        obtain rfl : d = c := (List.cons.inj same).1
        rw [word_chars d List.mem_cons_self] at word_char
        cases word_char
      rw [keywordAt_eq_none joint no_word, List.takeWhile_cons_of_neg (by rw [word_char]; decide)]
      rfl

variable (joint : lexemes text = before ++ lexemes rest) (closed : AllClosed before)
  (no_dot : (Cursor.start.after before).afterDot = false)
include joint closed no_dot

/-- At the head of a line, alignment is told by its first word and the keywords in sight. -/
lemma alignment_head :
    (Script.ofText text).alignment (written before).length
      = alignmentIn (Keyword.ofText? (rest.takeWhile isWordChar))
          (sightBehind (looseAtoms .start before)).flatten := by
  have around : (Script.ofText text).enclosingOpener (written before).length
      = findOpener false [] (sightBehind (looseAtoms .start before)).flatten := by
    rw [← (View.of_joint joint closed).back]
    rfl
  have head := keywordAt_head joint no_dot
  rw [Script.alignment, around]
  cases lead : Keyword.ofText? (rest.takeWhile isWordChar) with
  | none =>
    rw [lead] at head
    rw [head]
    rfl
  | some keyword =>
    rw [lead, Option.map_some] at head
    rw [Script.matchingOpener, head, alignmentIn]
    dsimp only
    rw [keywordsBack_joint joint, decide_eq_true (Eq.refl (written before).length), Bool.true_and]
    cases keyword.closes with
    | false => rfl
    | true => rfl

/-- At the head of a line, the plan is told by the survey and the alignment. -/
lemma plan_head (lead : Option Char) :
    (Script.ofText text).plan (written before).length lead
      = planAgainst
          (if lead = some ')' then (survey before).depth - 1 else (survey before).depth)
          ((alignmentIn (Keyword.ofText? (rest.takeWhile isWordChar))
            (sightBehind (looseAtoms .start before)).flatten).map
              (Prod.map (Script.ofText text).landmark id)) := by
  rw [Script.plan, contextAt_joint joint closed, alignment_head joint closed no_dot, depth_survey]
  cases alignmentIn (Keyword.ofText? (rest.takeWhile isWordChar))
    (sightBehind (looseAtoms .start before)).flatten with
  | none => rfl
  | some found => rfl

end

/-! ## The parts of a line -/

namespace Line

/-- A row is its blanks, its body and its ending. -/
lemma row_parts (line : Line) : line.blanks ++ (line.body ++ line.ending) = line.row := by
  rw [← List.append_assoc, line.blanks_append_body, line.text_append_ending]

/-- Blanks are blank. -/
lemma isBlank_of_mem_blanks {line : Line} {c : Char} (mem : c ∈ line.blanks) : isBlank c = true :=
  List.mem_takeWhile_imp mem

/-- Behind the text of a line comes nothing, or a line end. -/
lemma isLineEnd_of_head {line : Line} {rest : List Char} (ended : ∀ c ∈ rest.head?, c = '\n') :
    ∀ c ∈ (line.ending ++ rest).head?, isLineEnd c = true := by
  intro c mem
  rcases line.text_ending_cases with ⟨_, ending⟩ | ⟨_, _, ending⟩
  · rw [ending] at mem
    rw [← Option.some.inj mem]
    rfl
  · rw [ending, List.nil_append] at mem
    rw [ended c mem]
    rfl

end Line

/-- What is taken stops where the rest does not go on. -/
lemma takeWhile_append_stop {p : Char → Bool} {rest : List Char}
    (stop : ∀ c ∈ rest.head?, p c = false) (front : List Char) :
    (front ++ rest).takeWhile p = front.takeWhile p := by
  induction front with
  | nil =>
    cases rest with
    | nil => rfl
    | cons c more =>
      have stops := stop c rfl
      simp [stops]
  | cons c front ih => rw [List.cons_append, List.takeWhile_cons, List.takeWhile_cons, ih]

/-- A line end is neither a blank nor of words. -/
lemma not_of_isLineEnd {c : Char} (line_end : isLineEnd c = true) :
    isBlank c = false ∧ isWordChar c = false := by
  have two : c = '\r' ∨ c = '\n' := by simpa [isLineEnd] using line_end
  rcases two with rfl | rfl
  · exact ⟨rfl, rfl⟩
  · exact ⟨rfl, rfl⟩

section
variable {line : Line} {text above rest : List Char} {before : List Lexeme} {pending : List Char}

/-- Reading goes on behind the blanks of a line. -/
lemma Resumes.line_blanks (resumes : Resumes above before []) (line : Line) :
    Resumes (above ++ line.blanks) (before ++ line.blanks.map .space) [] :=
  resumes.append (resumes_blanks fun _ => Line.isBlank_of_mem_blanks)

/-- No dot reaches over whole lines. -/
lemma Resumes.no_dot (resumes : Resumes above before []) (whole : WholeLines above) :
    (survey before).afterDot = false := by
  have stream := resumes.stream []
  have same := resumes.written_append
  rw [List.append_nil] at same
  rw [afterDot_survey, afterDot_after stream, same]
  cases last : above.getLast? with
  | none => rfl
  | some c =>
    rw [whole c last]
    rfl

/-- The body of a line begins behind the lines above and its blanks. -/
lemma Line.StandsIn.firstNonblank (stands : line.StandsIn text above rest) :
    line.firstNonblank = (above ++ line.blanks).length := by
  rw [Line.firstNonblank, stands.start, List.length_append]

/-- A text is split around the text of a line. -/
lemma Line.StandsIn.text_parts (stands : line.StandsIn text above rest) :
    text = above ++ (line.text ++ (line.ending ++ rest)) := by
  rw [← List.append_assoc line.text, line.text_append_ending]
  exact stands.parts

/-- A text is split around the body of a line. -/
lemma Line.StandsIn.body_parts (stands : line.StandsIn text above rest) :
    text = (above ++ line.blanks) ++ (line.body ++ (line.ending ++ rest)) := by
  rw [List.append_assoc, ← List.append_assoc line.body, ← List.append_assoc line.blanks,
    line.row_parts]
  exact stands.parts

/-- A line that begins inside of a string or block comment does not begin in code. -/
lemma Line.StandsIn.not_inCode (stands : line.StandsIn text above rest)
    (resumes : Resumes above before pending) (inside : pending ≠ []) :
    ((Script.ofText text).contextAt line.firstNonblank).inCode = false := by
  have blanks : (line.row ++ rest).takeWhile isBlank = line.blanks := by
    rw [takeWhile_append_stop _ line.row, line.takeWhile_row]
    intro c mem
    rw [stands.ended c mem]
    rfl
  have kept := resumes.not_inCode inside (line.row ++ rest)
  rwa [← stands.parts, blanks, ← List.length_append, ← stands.firstNonblank] at kept

/-- There is a joint behind the blanks of a line in code. -/
lemma Line.StandsIn.joint (stands : line.StandsIn text above rest)
    (resumes : Resumes above before []) :
    lexemes text
      = before ++ line.blanks.map .space ++ lexemes (line.body ++ (line.ending ++ rest)) := by
  have joint := (resumes.line_blanks line).reads_on (line.body ++ (line.ending ++ rest))
  rwa [List.append_assoc, ← List.append_assoc line.body, ← List.append_assoc line.blanks,
    line.row_parts, ← stands.parts, List.append_assoc line.body] at joint

/-- The plan of a line in code, from what is in sight behind its blanks. -/
lemma Line.StandsIn.planLine_eq (stands : line.StandsIn text above rest)
    (resumes : Resumes above before []) :
    (Script.ofText text).planLine line
      = planAgainst
          (if line.body.head? = some ')' then (survey before).depth - 1 else (survey before).depth)
          ((alignmentIn (Keyword.ofText? (line.body.takeWhile isWordChar))
            (sightBehind (looseAtoms .start (before ++ line.blanks.map .space))).flatten).map
              (Prod.map (Script.ofText text).landmark id)) := by
  have resumes' := resumes.line_blanks line
  have same := resumes'.written_append
  have no_dot := resumes.no_dot stands.whole
  have known := survey_blanks no_dot fun _ => @Line.isBlank_of_mem_blanks line _
  rw [List.append_nil] at same
  have word : (line.body ++ (line.ending ++ rest)).takeWhile isWordChar
      = line.body.takeWhile isWordChar := by
    apply takeWhile_append_stop
    exact fun c mem => (not_of_isLineEnd (Line.isLineEnd_of_head stands.ended c mem)).2
  have plan := plan_head (stands.joint resumes) resumes'.allClosed
    (by rw [← afterDot_survey, known, no_dot]) line.body.head?
  rwa [same, ← stands.firstNonblank, known, word] at plan

end

/-- A line is placed alike where the same is known above it, something is pending in both texts or in
neither, and the text behind its blanks is the same. -/
lemma planLine_congr {line line' : Line}
    {text text' above above' rest rest' pending pending' : List Char} {before before' : List Lexeme}
    (stands : line.StandsIn text above rest) (stands' : line'.StandsIn text' above' rest')
    (resumes : Resumes above before pending) (resumes' : Resumes above' before' pending')
    (pends : pending = [] ↔ pending' = []) (same : survey before = survey before')
    (body : line.body = line'.body) :
    (Script.ofText text).planLine line = (Script.ofText text').planLine line' := by
  by_cases inside : pending = []
  · obtain rfl := pends.1 inside
    subst inside
    have known : survey (before ++ line.blanks.map .space)
        = survey (before' ++ line'.blanks.map .space) := by
      rw [survey_blanks (resumes.no_dot stands.whole) fun _ => Line.isBlank_of_mem_blanks,
        survey_blanks (resumes'.no_dot stands'.whole) fun _ => Line.isBlank_of_mem_blanks, same]
    have marks := landmarks_survey (stands.joint resumes)
    rw [known, ← landmarks_survey (stands'.joint resumes')] at marks
    rw [stands.planLine_eq resumes, stands'.planLine_eq resumes', same, body,
      alignmentIn_congr marks]
  · have inside' := mt pends.2 inside
    rw [planLine_of_not_inCode (by rw [stands.not_inCode resumes inside]; decide),
      planLine_of_not_inCode (by rw [stands'.not_inCode resumes' inside']; decide)]

/-- A line is placed against a line above it. -/
lemma base_lt_of_planLine {line : Line} {text above rest : List Char} {base : Nat} {levels : Int}
    (stands : line.StandsIn text above rest)
    (plan : (Script.ofText text).planLine line = .indent (some base) levels) :
    base < above.count '\n' := by
  obtain ⟨before, pending, resumes⟩ := exists_resumes stands.whole
  obtain rfl : pending = [] := by
    by_contra inside
    rw [planLine_of_not_inCode (by rw [stands.not_inCode resumes inside]; decide)] at plan
    cases plan
  rw [stands.planLine_eq resumes] at plan
  cases aligned : alignmentIn (Keyword.ofText? (line.body.takeWhile isWordChar))
      (sightBehind (looseAtoms .start (before ++ line.blanks.map .space))).flatten with
  | none =>
    rw [aligned] at plan
    cases plan
  | some found =>
    obtain ⟨opener, count⟩ := found
    rw [aligned] at plan
    obtain rfl : ((Script.ofText text).landmark opener).line = base :=
      Option.some.inj (Plan.indent.inj plan).1
    have mem := List.mem_map_of_mem (f := (Script.ofText text).landmark) (mem_of_alignmentIn aligned)
    rw [landmarks_survey (stands.joint resumes), survey_blanks (resumes.no_dot stands.whole)
      fun _ => Line.isBlank_of_mem_blanks] at mem
    exact resumes.line_lt_of_mem stands.whole mem

end KixScript

import KixScript.Lexeme
import Mathlib.Data.List.TakeWhile
import Mathlib.Tactic.Common

/-!
# Streams of lexemes

The lexemes of a text, described from the outside: each lexeme has the shape of its kind, and what
follows it could not have been read as a part of it. `lexemes_eq_iff` says that cutting a text into
lexemes and writing a stream down are inverse to each other.

What a lexeme asks of the text behind it is at most two characters long (`SameFront`). So streams can
be joined wherever the lexeme before the joint has an end of its own (`lexemes_append`).
-/

namespace KixScript

/-- The first place of a mark in a body is the end of the body. -/
def ClosedBy (mark body : List Char) : Prop :=
  cutAfter? mark body = some (body, [])

/-- A cut ends with the whole mark. -/
lemma length_le_of_cutAfter? {mark text before behind : List Char}
    (h : cutAfter? mark text = some (before, behind)) : mark.length ≤ before.length := by
  induction text generalizing before with
  | nil => simp [cutAfter?] at h
  | cons c rest ih =>
    rw [cutAfter?] at h
    split at h
    · obtain ⟨rfl, _⟩ := by simpa using h
      exact Nat.le_refl _
    · obtain ⟨⟨before', behind'⟩, cut, same⟩ := Option.map_eq_some_iff.1 h
      obtain ⟨rfl, rfl⟩ := by simpa using same
      exact Nat.le_succ_of_le (ih cut)

/-- What is cut off is closed by the mark. -/
lemma closedBy_of_cutAfter? {mark text before behind : List Char} (some_mark : mark ≠ [])
    (h : cutAfter? mark text = some (before, behind)) : ClosedBy mark before := by
  induction text generalizing before with
  | nil => simp [cutAfter?] at h
  | cons c rest ih =>
    rw [cutAfter?] at h
    split at h
    · obtain ⟨rfl, _⟩ := by simpa using h
      obtain ⟨m, more, rfl⟩ := List.exists_cons_of_ne_nil some_mark
      simp [ClosedBy, cutAfter?]
    · rename_i absent
      obtain ⟨⟨before', behind'⟩, cut, same⟩ := Option.map_eq_some_iff.1 h
      obtain ⟨rfl, rfl⟩ := by simpa using same
      have closed : cutAfter? mark before' = some (before', []) := ih cut
      have whole := append_of_cutAfter? cut
      -- The mark would stand at the head of the whole text too.
      have absent' : ¬mark.isPrefixOf (c :: before') = true := by
        intro found
        apply absent
        rw [List.isPrefixOf_iff_prefix] at found ⊢
        rw [← whole]
        exact found.trans (List.prefix_append (c :: before') behind')
      rw [ClosedBy, cutAfter?, if_neg absent', closed]
      rfl

/-- A body that a mark closes is cut off before whatever follows it. -/
lemma ClosedBy.cut_append {mark body : List Char} (h : ClosedBy mark body) (behind : List Char) :
    cutAfter? mark (body ++ behind) = some (body, behind) := by
  induction body with
  | nil => simp [ClosedBy, cutAfter?] at h
  | cons c rest ih =>
    rw [ClosedBy, cutAfter?] at h
    split at h
    · obtain ⟨rfl, _⟩ := by simpa using h
      have found : (c :: rest).isPrefixOf ((c :: rest) ++ behind) = true := by simp
      rw [List.cons_append, cutAfter?, ← List.cons_append, if_pos found, List.drop_left]
    · rename_i absent
      obtain ⟨⟨before', behind'⟩, cut, same⟩ := Option.map_eq_some_iff.1 h
      obtain ⟨rfl, rfl⟩ := by simpa using same
      have enough := length_le_of_cutAfter? cut
      -- The mark fits into the body, so what follows cannot complete it.
      have absent' : ¬mark.isPrefixOf (c :: (before' ++ behind)) = true := by
        intro found
        apply absent
        rw [List.isPrefixOf_iff_prefix] at found ⊢
        rw [← List.cons_append] at found
        exact List.prefix_of_prefix_length_le found (List.prefix_append _ _)
          (Nat.le_succ_of_le enough)
      rw [List.cons_append, cutAfter?, if_neg absent', ih cut]
      rfl

/-- A cut stays where it is, whatever follows. -/
lemma cutAfter?_append {mark front before behind : List Char} (some_mark : mark ≠ [])
    (cut : cutAfter? mark front = some (before, behind)) (more : List Char) :
    cutAfter? mark (front ++ more) = some (before, behind ++ more) := by
  rw [← append_of_cutAfter? cut, List.append_assoc]
  exact (closedBy_of_cutAfter? some_mark cut).cut_append (behind ++ more)

/-- A text without a mark has none in its front either. -/
lemma uncut_of_append {mark front more : List Char} (some_mark : mark ≠ [])
    (uncut : cutAfter? mark (front ++ more) = none) : cutAfter? mark front = none := by
  cases cut : cutAfter? mark front with
  | none => rfl
  | some parts =>
    rw [cutAfter?_append some_mark cut] at uncut
    cases uncut

/-- The mark stands nowhere before the end of the body that it closes. -/
lemma ClosedBy.uncut {mark front more : List Char} (some_mark : mark ≠ [])
    (h : ClosedBy mark (front ++ more)) (some_more : more ≠ []) : cutAfter? mark front = none := by
  cases cut : cutAfter? mark front with
  | none => rfl
  | some parts =>
    rw [ClosedBy, cutAfter?_append some_mark cut, Option.some.injEq, Prod.mk.injEq] at h
    exact absurd (List.append_eq_nil_iff.1 h.2).2 some_more

/-- What is closed by a mark ends with it. -/
lemma ClosedBy.exists_append {mark body : List Char} (h : ClosedBy mark body) :
    ∃ front, body = front ++ mark := by
  induction body with
  | nil => simp [ClosedBy, cutAfter?] at h
  | cons c rest ih =>
    rw [ClosedBy, cutAfter?] at h
    split at h
    · obtain ⟨same, _⟩ := by simpa using h
      exact ⟨[], same.symm⟩
    · obtain ⟨⟨before', behind'⟩, cut, same⟩ := Option.map_eq_some_iff.1 h
      obtain ⟨rfl, rfl⟩ := by simpa using same
      obtain ⟨front, split⟩ := ih cut
      exact ⟨c :: front, by rw [split, List.cons_append]⟩

/-- A text is cut unless the mark stands nowhere in it. -/
lemma uncut_iff {mark body : List Char} (some_mark : mark ≠ []) :
    cutAfter? mark body = none ↔ ¬ mark <:+: body := by
  induction body with
  | nil =>
    rw [List.infix_nil]
    exact iff_of_true rfl some_mark
  | cons c rest ih =>
    rw [cutAfter?, List.infix_cons_iff, not_or, ← ih, ← List.isPrefixOf_iff_prefix]
    split
    · rename_i found
      exact iff_of_false (Option.some_ne_none _) fun absent => absent.1 found
    · rename_i absent
      rw [Option.map_eq_none_iff]
      exact ⟨fun uncut => ⟨absent, uncut⟩, fun uncut => uncut.2⟩

/-- A mark of one character that is not found is not there. -/
lemma not_mem_of_uncut {mark : Char} {body : List Char} (uncut : cutAfter? [mark] body = none) :
    mark ∉ body := by
  intro mem
  obtain ⟨front, back, rfl⟩ := List.append_of_mem mem
  exact (uncut_iff (List.cons_ne_nil _ _)).1 uncut ⟨front, back, List.append_assoc ..⟩

/-- A mark closes any text that it does not stand in, if it does not overlap itself. -/
lemma closedBy_append {c : Char} {more front : List Char} (no_overlap : c ∉ more)
    (nowhere : ¬ c :: more <:+: front) : ClosedBy (c :: more) (front ++ c :: more) := by
  induction front with
  | nil => simp [ClosedBy, cutAfter?]
  | cons d rest ih =>
    rw [List.infix_cons_iff, not_or] at nowhere
    have absent : ¬ (c :: more).isPrefixOf (d :: (rest ++ c :: more)) = true := by
      rw [List.isPrefixOf_iff_prefix]
      rintro ⟨behind, whole⟩
      obtain ⟨rfl, same⟩ := List.cons.inj whole
      rcases List.append_eq_append_iff.1 same with
        ⟨between, rest_eq, _⟩ | ⟨between, more_eq, behind_eq⟩
      · exact nowhere.1 ⟨between, congrArg (List.cons c) rest_eq.symm⟩
      · -- The mark would go on behind `rest`, where it begins anew.
        cases between with
        | nil => exact nowhere.1 ⟨[], by rw [more_eq]; simp⟩
        | cons e between =>
          obtain ⟨rfl, _⟩ := List.cons.inj behind_eq
          exact no_overlap (more_eq ▸ List.mem_append_right rest List.mem_cons_self)
    have closed := ih nowhere.2
    rw [ClosedBy] at closed
    rw [List.cons_append, ClosedBy, cutAfter?, if_neg absent, closed]
    rfl

/-- A mark of one character stands at the end of the body that it closes and nowhere else. -/
lemma ClosedBy.exists_concat {mark : Char} {body : List Char} (h : ClosedBy [mark] body) :
    ∃ front, body = front ++ [mark] ∧ mark ∉ front := by
  induction body with
  | nil => simp [ClosedBy, cutAfter?] at h
  | cons c rest ih =>
    rw [ClosedBy, cutAfter?] at h
    split at h
    · obtain ⟨rfl, rfl⟩ := by simpa using h
      exact ⟨[], rfl, List.not_mem_nil⟩
    · rename_i absent
      obtain ⟨⟨before', behind'⟩, cut, same⟩ := Option.map_eq_some_iff.1 h
      obtain ⟨rfl, rfl⟩ := by simpa using same
      obtain ⟨front, split, nowhere⟩ := ih cut
      refine ⟨c :: front, by rw [split, List.cons_append], ?_⟩
      intro mem
      rcases List.mem_cons.1 mem with rfl | mem
      · simp at absent
      · exact nowhere mem

/-- Two texts look alike to the lexeme before them: they begin with the same character, and after a
slash with the same two, since the second decides about a block comment. -/
def SameFront (first second : List Char) : Prop :=
  first.head? = second.head? ∧ (first.head? = some '/' → first.tail.head? = second.tail.head?)

/-- Every text begins like itself. -/
lemma SameFront.refl (text : List Char) : SameFront text text :=
  ⟨rfl, fun _ => rfl⟩

/-- Texts begin alike in both directions. -/
lemma SameFront.symm {first second : List Char} (h : SameFront first second) :
    SameFront second first :=
  ⟨h.1.symm, fun slash => (h.2 (h.1.trans slash)).symm⟩

/-- What begins like the same text begins alike. -/
lemma SameFront.trans {first second third : List Char} (h : SameFront first second)
    (h' : SameFront second third) : SameFront first third :=
  ⟨h.1.trans h'.1, fun slash => (h.2 slash).trans (h'.2 (h.1.symm.trans slash))⟩

/-- One character more at the front of both keeps them alike. -/
lemma SameFront.cons {c : Char} {first second : List Char} (h : SameFront first second) :
    SameFront (c :: first) (c :: second) :=
  ⟨rfl, fun _ => h.1⟩

/-- A text more at the front of both keeps them alike. -/
lemma SameFront.append_left {first second : List Char} (h : SameFront first second)
    (text : List Char) : SameFront (text ++ first) (text ++ second) := by
  induction text with
  | nil => exact h
  | cons c rest ih => exact ih.cons

/-- What is added behind a text cannot be seen from before it, unless the text is a lone slash. -/
lemma SameFront.append_right {text : List Char} (some_text : text ≠ []) (no_slash : text ≠ ['/'])
    (behind : List Char) : SameFront text (text ++ behind) := by
  match text with
  | [] => exact absurd rfl some_text
  | [c] =>
    refine ⟨rfl, fun slash => ?_⟩
    exact absurd (by simpa using slash) no_slash
  | c :: d :: rest => exact ⟨rfl, fun _ => rfl⟩

/-- A run of punctuation stops before both of two texts that begin alike, or before none. -/
lemma SameFront.stop {first second : List Char} (h : SameFront first second) :
    punctuationRun first = ([], first) ↔ punctuationRun second = ([], second) := by
  obtain ⟨head, slash⟩ := h
  match first, second with
  | [], [] => rfl
  | [], d :: more => simp at head
  | c :: rest, [] => simp at head
  | c :: rest, d :: more =>
    obtain rfl : c = d := by simpa using head
    -- Only behind a slash does the second character count.
    have opens : opensBlockComment c rest = opensBlockComment c more := by
      unfold opensBlockComment
      by_cases same : c = '/'
      · have second_same : rest.head? = more.head? := by simpa using slash (by simp [same])
        rw [second_same]
      · rw [beq_false_of_ne same, Bool.false_and, Bool.false_and]
    rw [punctuationRun, punctuationRun, opens]
    split <;> simp

/-- A run of punctuation is as long before each of two texts that begin alike. -/
lemma SameFront.run {first second text : List Char} (h : SameFront first second)
    (run : punctuationRun (text ++ first) = (text, first)) :
    punctuationRun (text ++ second) = (text, second) := by
  induction text with
  | nil => exact h.stop.1 run
  | cons c rest ih =>
    have opens : opensBlockComment c (rest ++ second) = opensBlockComment c (rest ++ first) := by
      unfold opensBlockComment
      rw [(h.append_left rest).1]
    simp only [List.cons_append, punctuationRun] at run ⊢
    split at run
    · simp at run
    · rename_i goes_on
      have tail_run : punctuationRun (rest ++ first) = (rest, first) := by
        rw [Prod.mk.injEq, List.cons.injEq] at run
        exact Prod.ext run.1.2 run.2
      rw [opens, if_neg goes_on, ih tail_run]

/-- Nothing in a run of punctuation ends it. -/
lemma goes_on_of_run {run rest : List Char} (runs : punctuationRun (run ++ rest) = (run, rest)) :
    ∀ before c behind, run = before ++ c :: behind →
      endsPunctuation c = false ∧ opensBlockComment c (behind ++ rest) = false := by
  induction run with
  | nil =>
    intro before c behind split
    exact absurd split.symm (by simp)
  | cons d more ih =>
    rw [List.cons_append, punctuationRun] at runs
    split at runs
    · simp at runs
    · rename_i goes_on
      rw [Prod.mk.injEq, List.cons.injEq] at runs
      intro before c behind split
      cases before with
      | nil =>
        obtain ⟨rfl, rfl⟩ := List.cons.inj split
        simpa only [Bool.or_eq_true, not_or, Bool.not_eq_true] using goes_on
      | cons _ before => exact ih (Prod.ext runs.1.2 runs.2) before c behind (List.cons.inj split).2

/-- No character of a run of punctuation is one of those that end it. -/
lemma not_endsPunctuation_of_run {run rest : List Char}
    (runs : punctuationRun (run ++ rest) = (run, rest)) : ∀ c ∈ run, endsPunctuation c = false := by
  intro c mem
  obtain ⟨before, behind, split⟩ := List.append_of_mem mem
  exact (goes_on_of_run runs before c behind split).1

/-- A character of a word differs from one that is not of words. -/
lemma ne_of_isWordChar {c d : Char} (word_char : isWordChar c = true)
    (no_word : isWordChar d = false) : c ≠ d := by
  rintro rfl
  rw [word_char] at no_word
  cases no_word

/-- Blanks and line ends are not of words. -/
lemma not_space_of_isWordChar {c : Char} (word_char : isWordChar c = true) :
    (isBlank c || isLineEnd c) = false := by
  have other : ∀ d, isWordChar d = false → c ≠ d := fun d => ne_of_isWordChar word_char
  simp [isBlank, isLineEnd, other ' ' (by decide), other '\t' (by decide), other '\r' (by decide),
    other '\n' (by decide)]

namespace Lexeme

/-- The text behind the opening delimiter of a comment or string is closed by its mark, or holds no
mark and is followed by nothing. -/
def Encloses (mark body rest : List Char) : Bool → Prop
  | true => ClosedBy mark body
  | false => cutAfter? mark body = none ∧ rest = []

/-- A lexeme has the shape of its kind, and reading it stops before `rest`. -/
def Reads : Lexeme → List Char → Prop
  | space c, _ => (isBlank c || isLineEnd c) = true
  | word text, rest =>
    text ≠ [] ∧ (∀ c ∈ text, isWordChar c = true) ∧ ∀ c ∈ rest.head?, isWordChar c = false
  | punctuation text, rest => text ≠ [] ∧ punctuationRun (text ++ rest) = (text, rest)
  | opening, _ => True
  | closing, _ => True
  | region .string text closed, rest =>
    ∃ quote body, isQuote quote = true ∧ text = quote :: body ∧ Encloses [quote] body rest closed
  | region .lineComment text closed, rest =>
    ∃ body, text = ';' :: body ∧ Encloses ['\n'] body rest closed
  | region .blockComment text closed, rest =>
    ∃ body, text = '/' :: '*' :: body ∧ Encloses ['*', '/'] body rest closed

/-- A comment or string is read through the first mark behind its delimiter. -/
lemma enclosed_encloses (kind : RegionKind) (delimiter : List Char) {mark : List Char}
    (some_mark : mark ≠ []) (rest : List Char) :
    ∃ body closed, (enclosed kind delimiter mark rest).1 = region kind (delimiter ++ body) closed ∧
      Encloses mark body (enclosed kind delimiter mark rest).2 closed := by
  unfold enclosed
  split
  · rename_i body behind cut
    exact ⟨body, true, rfl, closedBy_of_cutAfter? some_mark cut⟩
  · rename_i uncut
    exact ⟨rest, false, rfl, uncut, rfl⟩

/-- What a mark closes is read as a comment or string. -/
lemma enclosed_of_encloses (kind : RegionKind) (delimiter : List Char) {mark body rest : List Char}
    {closed : Bool} (h : Encloses mark body rest closed) :
    enclosed kind delimiter mark (body ++ rest)
      = (region kind (delimiter ++ body) closed, rest) := by
  cases closed with
  | true => rw [enclosed, ClosedBy.cut_append h]
  | false =>
    obtain ⟨uncut, rfl⟩ := h
    rw [List.append_nil, enclosed, uncut]

/-- A character of a word begins a word. -/
lemma first_word {c : Char} (word_char : isWordChar c = true) (rest : List Char) :
    first c rest = (word (c :: rest.takeWhile isWordChar), rest.dropWhile isWordChar) := by
  have other : ∀ d, isWordChar d = false → c ≠ d := fun d => ne_of_isWordChar word_char
  have quote : isQuote c = false := by
    simp [isQuote, other '"' (by decide), other '\x27' (by decide)]
  have block : opensBlockComment c rest = false := by
    simp [opensBlockComment, other '/' (by decide)]
  have blank := not_space_of_isWordChar word_char
  simp [first, quote, block, blank, word_char, other ';' (by decide), other '(' (by decide),
    other ')' (by decide)]

/-- A character that does not end a run of punctuation begins one. -/
lemma first_punctuation {c : Char} {rest : List Char}
    (goes_on : ¬(endsPunctuation c || opensBlockComment c rest) = true) :
    first c rest = (punctuation (c :: (punctuationRun rest).1), (punctuationRun rest).2) := by
  simp only [endsPunctuation, Bool.or_eq_true, not_or, Bool.not_eq_true, beq_eq_false_iff_ne]
    at goes_on
  obtain ⟨⟨⟨⟨⟨⟨⟨blank, line_end⟩, left⟩, right⟩, comment⟩, quote⟩, word⟩, block⟩ := goes_on
  simp [first, *]

/-- A blank or line end is read alone. -/
lemma first_space {c : Char} (blank : (isBlank c || isLineEnd c) = true) (rest : List Char) :
    first c rest = (space c, rest) := by
  have four : c = ' ' ∨ c = '\t' ∨ c = '\r' ∨ c = '\n' := by
    simpa [isBlank, isLineEnd, or_assoc] using blank
  rcases four with rfl | rfl | rfl | rfl <;> rfl

/-- What is read first has the shape of its kind. -/
lemma first_reads (c : Char) (rest : List Char) :
    Reads (first c rest).1 (first c rest).2 := by
  unfold first
  split
  · rename_i quote
    obtain ⟨body, closed, same, encloses⟩ :=
      enclosed_encloses .string [c] (List.cons_ne_nil c []) rest
    rw [same]
    exact ⟨c, body, quote, rfl, encloses⟩
  split
  · obtain ⟨body, closed, same, encloses⟩ :=
      enclosed_encloses .lineComment [';'] (List.cons_ne_nil '\n' []) rest
    rw [same]
    exact ⟨body, rfl, encloses⟩
  split
  · obtain ⟨body, closed, same, encloses⟩ :=
      enclosed_encloses .blockComment ['/', '*'] (List.cons_ne_nil '*' ['/']) rest.tail
    rw [same]
    exact ⟨body, rfl, encloses⟩
  split
  · trivial
  split
  · trivial
  split
  · assumption
  split
  · rename_i word_char
    refine ⟨List.cons_ne_nil _ _, ?_, ?_⟩
    · intro d mem
      rcases List.mem_cons.1 mem with rfl | mem
      · exact word_char
      · exact List.mem_takeWhile_imp mem
    · intro d mem
      have stop := List.head?_dropWhile_not isWordChar rest
      rw [Option.mem_def.1 mem] at stop
      exact stop
  · rename_i quote comment block left right blank word
    have goes_on : ¬(endsPunctuation c || opensBlockComment c rest) = true := by
      simp only [Bool.or_eq_true, not_or] at blank
      simp [endsPunctuation, quote, comment, block, left, right, blank, word]
    refine ⟨List.cons_ne_nil _ _, ?_⟩
    rw [List.cons_append, punctuationRun_append, punctuationRun, if_neg goes_on]

/-- Whatever has the shape of its kind is what is read. -/
lemma Reads.first {lexeme : Lexeme} {rest : List Char} (h : lexeme.Reads rest) :
    ∃ c text, lexeme.text ++ rest = c :: text ∧ first c text = (lexeme, rest) := by
  match lexeme, h with
  | space c, h => exact ⟨c, rest, rfl, first_space h rest⟩
  | word text, ⟨some_text, word_chars, stop⟩ =>
    obtain ⟨c, more, rfl⟩ := List.exists_cons_of_ne_nil some_text
    refine ⟨c, more ++ rest, rfl, ?_⟩
    have inside : ∀ d ∈ more, isWordChar d = true :=
      fun d mem => word_chars d (List.mem_cons_of_mem c mem)
    have outside : rest.takeWhile isWordChar = [] ∧ rest.dropWhile isWordChar = rest := by
      match rest, stop with
      | [], _ => exact ⟨rfl, rfl⟩
      | d :: _, stop =>
        have no_word := stop d rfl
        simp [no_word]
    rw [first_word (word_chars c List.mem_cons_self), List.takeWhile_append_of_pos inside,
      List.dropWhile_append_of_pos inside, outside.1, outside.2, List.append_nil]
  | punctuation text, ⟨some_text, run⟩ =>
    obtain ⟨c, more, rfl⟩ := List.exists_cons_of_ne_nil some_text
    refine ⟨c, more ++ rest, rfl, ?_⟩
    rw [List.cons_append, punctuationRun] at run
    split at run
    · simp at run
    · rename_i goes_on
      rw [Prod.mk.injEq] at run
      rw [first_punctuation goes_on, run.1, run.2]
  | opening, _ => exact ⟨'(', rest, rfl, rfl⟩
  | closing, _ => exact ⟨')', rest, rfl, rfl⟩
  | region .string _ closed, ⟨quote, body, is_quote, rfl, encloses⟩ =>
    refine ⟨quote, body ++ rest, rfl, ?_⟩
    rw [Lexeme.first, if_pos is_quote, enclosed_of_encloses .string [quote] encloses]
    rfl
  | region .lineComment _ closed, ⟨body, rfl, encloses⟩ =>
    refine ⟨';', body ++ rest, rfl, ?_⟩
    rw [Lexeme.first, if_neg (by decide), if_pos rfl,
      enclosed_of_encloses .lineComment [';'] encloses]
    rfl
  | region .blockComment _ closed, ⟨body, rfl, encloses⟩ =>
    refine ⟨'/', '*' :: (body ++ rest), rfl, ?_⟩
    have opens : opensBlockComment '/' ('*' :: (body ++ rest)) = true := rfl
    rw [Lexeme.first, if_neg (by decide), if_neg (by decide), if_pos opens, List.tail_cons,
      enclosed_of_encloses .blockComment ['/', '*'] encloses]
    rfl

/-- A lexeme is read alike before texts that begin alike. -/
lemma Reads.of_sameFront {lexeme : Lexeme} {rest rest' : List Char} (h : lexeme.Reads rest)
    (alike : SameFront rest rest') : lexeme.Reads rest' := by
  have encloses : ∀ {mark body closed}, Encloses mark body rest closed →
      Encloses mark body rest' closed := by
    intro mark body closed h
    cases closed with
    | true => exact h
    | false =>
      refine ⟨h.1, ?_⟩
      have nothing : rest'.head? = none := by
        rw [← alike.1, h.2]
        rfl
      exact List.head?_eq_none_iff.1 nothing
  match lexeme, h with
  | space c, h => exact h
  | word text, ⟨some_text, word_chars, stop⟩ =>
    exact ⟨some_text, word_chars, fun c mem => stop c (by rwa [alike.1])⟩
  | punctuation text, ⟨some_text, run⟩ => exact ⟨some_text, alike.run run⟩
  | opening, _ => trivial
  | closing, _ => trivial
  | region .string _ closed, ⟨quote, body, is_quote, same, h⟩ =>
    exact ⟨quote, body, is_quote, same, encloses h⟩
  | region .lineComment _ closed, ⟨body, same, h⟩ => exact ⟨body, same, encloses h⟩
  | region .blockComment _ closed, ⟨body, same, h⟩ => exact ⟨body, same, encloses h⟩

/-- A lexeme has an end of its own if nothing that follows can make it longer. -/
def selfEnding : Lexeme → Bool
  | word _ => false
  | punctuation _ => false
  | region _ _ closed => closed
  | _ => true

/-- A lexeme with an end of its own is read so before any text. -/
lemma Reads.of_selfEnding {lexeme : Lexeme} {rest : List Char} (h : lexeme.Reads rest)
    (own_end : lexeme.selfEnding = true) (rest' : List Char) : lexeme.Reads rest' := by
  match lexeme, h with
  | space c, h => exact h
  | word text, _ => cases own_end
  | punctuation text, _ => cases own_end
  | opening, _ => trivial
  | closing, _ => trivial
  | region .string _ true, ⟨quote, body, is_quote, same, h⟩ =>
    exact ⟨quote, body, is_quote, same, h⟩
  | region .lineComment _ true, ⟨body, same, h⟩ => exact ⟨body, same, h⟩
  | region .blockComment _ true, ⟨body, same, h⟩ => exact ⟨body, same, h⟩

/-- A lexeme that ends by itself is no slash. -/
lemma Reads.text_ne_slash {lexeme : Lexeme} {rest : List Char} (h : lexeme.Reads rest)
    (own_end : lexeme.selfEnding = true) : lexeme.text ≠ ['/'] := by
  match lexeme, h with
  | space c, h =>
    rintro slash
    obtain rfl : c = '/' := by simpa [text] using slash
    cases h
  | word text, _ => cases own_end
  | punctuation text, _ => cases own_end
  | opening, _ => decide
  | closing, _ => decide
  | region .string _ true, ⟨quote, body, is_quote, rfl, _⟩ =>
    rintro slash
    obtain ⟨rfl, _⟩ : quote = '/' ∧ body = [] := by simpa [text] using slash
    exact absurd is_quote (by decide)
  | region .lineComment _ true, ⟨body, rfl, _⟩ => simp [text]
  | region .blockComment _ true, ⟨body, rfl, _⟩ => simp [text]

/-- Every lexeme has a character. -/
lemma Reads.text_ne_nil {lexeme : Lexeme} {rest : List Char} (h : lexeme.Reads rest) :
    lexeme.text ≠ [] := by
  obtain ⟨c, more, _, same⟩ := h.first
  rw [show lexeme = (Lexeme.first c more).1 by rw [same]]
  exact first_text_ne_nil c more

end Lexeme

/-- The text of some lexemes, written one after another. -/
def written (lexemes : List Lexeme) : List Char :=
  lexemes.flatMap Lexeme.text

@[simp] lemma written_nil : written [] = [] := rfl

/-- A first lexeme is written first. -/
@[simp] lemma written_cons (lexeme : Lexeme) (rest : List Lexeme) :
    written (lexeme :: rest) = lexeme.text ++ written rest := by
  simp [written]

/-- Lexemes are written one list after the other. -/
@[simp] lemma written_append (first second : List Lexeme) :
    written (first ++ second) = written first ++ written second := by
  simp [written]

/-- Each lexeme is read just so before the lexemes that follow it. -/
inductive Stream : List Lexeme → Prop where
  | nil : Stream []
  | cons {lexeme rest} :
    lexeme.Reads (written rest) →
    Stream rest →
    Stream (lexeme :: rest)

/-- The lexemes of a text are read one before the other. -/
lemma lexemes_stream (text : List Char) : Stream (lexemes text) := by
  fun_induction lexemes text with
  | case1 => exact .nil
  | case2 c rest ih =>
    refine .cons ?_ ih
    rw [written, lexemes_text]
    exact Lexeme.first_reads c rest

/-- A stream is read back from its text. -/
lemma Stream.lexemes_written {lexemes : List Lexeme} (stream : Stream lexemes) :
    KixScript.lexemes (written lexemes) = lexemes := by
  induction stream with
  | nil => exact lexemes_nil
  | @cons lexeme rest reads _ ih =>
    obtain ⟨c, text, same, first⟩ := reads.first
    rw [written_cons, same, lexemes_cons, first, ih]

/-- Cutting a text into lexemes and writing a stream down are inverse to each other. -/
theorem lexemes_eq_iff {text : List Char} {parts : List Lexeme} :
    lexemes text = parts ↔ Stream parts ∧ written parts = text := by
  constructor
  · rintro rfl
    exact ⟨lexemes_stream text, lexemes_text text⟩
  · rintro ⟨stream, rfl⟩
    exact stream.lexemes_written

/-- The lexemes behind some point are read one before the other. -/
lemma Stream.of_append_right {before behind : List Lexeme} (stream : Stream (before ++ behind)) :
    Stream behind := by
  induction before with
  | nil => exact stream
  | cons lexeme rest ih =>
    cases stream with
    | cons _ stream => exact ih stream

/-- A lexeme in a stream is read before what is written behind it. -/
lemma Stream.reads {before behind : List Lexeme} {lexeme : Lexeme}
    (stream : Stream (before ++ lexeme :: behind)) : lexeme.Reads (written behind) := by
  cases stream.of_append_right with
  | cons reads _ => exact reads

/-- The last lexeme, if there is one, has an end of its own. -/
def Settled (lexemes : List Lexeme) : Prop :=
  ∀ lexeme ∈ lexemes.getLast?, lexeme.selfEnding = true

/-- Where there are no lexemes, all is settled. -/
lemma settled_nil : Settled [] := by
  intro lexeme mem
  cases mem

/-- Lexemes are settled if the last one ends by itself. -/
lemma settled_concat {before : List Lexeme} {lexeme : Lexeme} :
    Settled (before ++ [lexeme]) ↔ lexeme.selfEnding = true := by
  simp [Settled]

/-- What is left of settled lexemes is settled. -/
lemma Settled.tail {lexeme : Lexeme} {rest : List Lexeme} (settled : Settled (lexeme :: rest)) :
    Settled rest := by
  cases rest with
  | nil => exact settled_nil
  | cons next more => exact fun last mem => settled last (by simpa using mem)

/-- Settled lexemes are not written as a slash. -/
lemma Stream.written_ne_slash {lexemes : List Lexeme} (stream : Stream lexemes)
    (settled : Settled lexemes) : written lexemes ≠ ['/'] := by
  cases stream with
  | nil => exact nofun
  | @cons lexeme rest reads stream =>
    cases stream with
    | nil => simpa using reads.text_ne_slash (settled lexeme rfl)
    | @cons next more reads' _ =>
      intro slash
      have lengths := congrArg List.length slash
      have first := List.length_pos_iff.2 reads.text_ne_nil
      have second := List.length_pos_iff.2 reads'.text_ne_nil
      simp only [written_cons, List.length_append, List.length_cons, List.length_nil] at lengths
      omega

/-- Some lexemes have some text. -/
lemma Stream.written_ne_nil {lexemes : List Lexeme} (stream : Stream lexemes)
    (some_lexeme : lexemes ≠ []) : written lexemes ≠ [] := by
  cases stream with
  | nil => exact absurd rfl some_lexeme
  | cons reads _ => simp [reads.text_ne_nil]

/-- Streams can be joined behind a lexeme that has an end of its own. -/
lemma Stream.append {before behind : List Lexeme} (stream : Stream before)
    (settled : Settled before) (stream' : Stream behind) : Stream (before ++ behind) := by
  induction stream with
  | nil => exact stream'
  | @cons lexeme rest reads stream ih =>
    rw [List.cons_append]
    refine .cons ?_ (ih settled.tail)
    rw [written_append]
    cases rest with
    | nil => exact reads.of_selfEnding (settled lexeme rfl) _
    | cons next more =>
      apply reads.of_sameFront
      exact SameFront.append_right (stream.written_ne_nil (List.cons_ne_nil _ _))
        (stream.written_ne_slash settled.tail) _

/-- The lexemes of a text and of what follows it, where the last lexeme of the text has an end of
its own. -/
theorem lexemes_append {before : List Char} (settled : Settled (lexemes before))
    (behind : List Char) : lexemes (before ++ behind) = lexemes before ++ lexemes behind := by
  rw [lexemes_eq_iff]
  refine ⟨(lexemes_stream before).append settled (lexemes_stream behind), ?_⟩
  rw [written_append, written, written, lexemes_text, lexemes_text]

end KixScript

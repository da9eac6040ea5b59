import KixScript.Proofs.NamedParts

/-!
# Parts of words, punctuation and parentheses

The parts of a script can also be made list by list: those of the words, each classified with a look at
the word before it, then the runs of punctuation, then the parentheses; and sorted by where they start.
Whether a word follows `Function` is seen from the word before it (`isBehindFunction_iff`), so the parts
of the words are those of their pieces (`wordParts_eq`). The three lists together are the highlighted
parts in another order (`perm_highlight`), and no two parts start at the same offset, so sorting leaves
one order only (`highlight_eq_mergedParts`).
-/

namespace KixScript

namespace Script
variable (script : Script)

/-- Whether the word before another one is `Function`, with blanks between them and nothing else. -/
def isBehindFunction (previous : Option Word) (word : Word) : Bool :=
  previous.any fun earlier =>
    !earlier.member && lower earlier.text == "function".toList &&
      (!(script.slice earlier.stop word.start).isEmpty &&
        (script.slice earlier.stop word.start).all isBlank)

/-- The parts of a word. -/
def partsOfWord (previous : Option Word) (word : Word) : List Part :=
  partsFrom word.start
    (fragments ⟨script.isBehindFunction previous word, word.member⟩ word.text)

/-- The parts of some words, where `previous` is the word before them. -/
def wordParts (script : Script) (previous : Option Word) : List Word → List Part
  | [] => []
  | word :: rest => script.partsOfWord previous word ++ script.wordParts (some word) rest

end Script

/-- The part of some punctuation. -/
def Span.punctuationPart (span : Span) : Part :=
  ⟨span.start, span.stop, .punctuation, .name⟩

/-- Where an atom stands that is a parenthesis. -/
def Atom.parenthesis? : Atom → Option Span
  | .word _ => none
  | .opening start _ => some ⟨start, start + 1⟩
  | .closing start _ => some ⟨start, start + 1⟩

/-- The parts of the words, of the punctuation and of the parentheses of a script, sorted by where they
start. -/
def Script.mergedParts (script : Script) : List Part :=
  (script.wordParts none script.scan.words
    ++ script.scan.punctuation.map Span.punctuationPart
    ++ (script.scan.atoms.filterMap Atom.parenthesis?).map Span.punctuationPart).mergeSort
      fun part part' => part.start ≤ part'.start

/-! ## The word before -/

/-- The words of some lexemes in their places. -/
def wordsOf (cursor : Cursor) (lexemes : List Lexeme) : List Word :=
  (placed cursor lexemes).filterMap Piece.word?

/-- Behind `Function` and blanks, `Function` is the word before. -/
lemma LeadsBy.getLast?_wordsOf {before earlier : List Lexeme} {token blanks : List Char}
    (leads : LeadsBy before earlier token blanks) :
    (wordsOf .start before).getLast? = Piece.word? ⟨.word token, Cursor.start.after earlier⟩ := by
  have no_word : ∀ cursor, (placed cursor (blanks.map .space)).filterMap Piece.word? = [] := by
    intro cursor
    rw [List.filterMap_eq_nil_iff]
    intro piece mem
    obtain ⟨front, back, split, _⟩ := exists_of_mem_placed mem
    obtain ⟨c, _, same⟩ := List.mem_map.1 (split ▸ List.mem_append_cons_self)
    rw [Piece.word?, ← same]
  rw [leads.split, wordsOf, placed_append, List.filterMap_append, placed_cons, List.filterMap_cons,
    no_word]
  exact List.getLast?_concat

/-- The words of two lists of lexemes stand one behind the other. -/
lemma wordsOf_append (cursor : Cursor) (before behind : List Lexeme) :
    wordsOf cursor (before ++ behind)
      = wordsOf cursor before ++ wordsOf (cursor.after before) behind := by
  rw [wordsOf, placed_append, List.filterMap_append]
  rfl

section
variable {text : List Char} {before behind : List Lexeme} {word : Word}
  (joint : lexemes text = before ++ behind) (start : word.start = (written before).length)
include joint start

/-- A word that is seen to follow `Function` does follow it. -/
lemma follows_of_isBehindFunction
    (seen : (Script.ofText text).isBehindFunction (wordsOf .start before).getLast? word = true) :
    (Script.ofText text).FollowsFunction (written before).length := by
  rw [Script.isBehindFunction, Option.any_eq_true, start] at seen
  obtain ⟨earlier, last, seen⟩ := seen
  simp only [Bool.and_eq_true, Bool.not_eq_true', beq_iff_eq, List.all_eq_true,
    List.isEmpty_eq_false_iff] at seen
  obtain ⟨⟨no_member, spells⟩, some_gap, blank⟩ := seen
  have mem : earlier ∈ (Script.ofText text).scan.words := by
    show earlier ∈ wordsOf .start (lexemes text)
    rw [joint, wordsOf_append]
    exact List.mem_append_left _ (List.mem_of_getLast? last)
  refine ⟨earlier, mem, no_member, spells, ?_, blank⟩
  apply Nat.lt_of_sub_ne_zero
  intro nothing
  rw [Script.slice, nothing] at some_gap
  exact some_gap List.take_zero

/-- A word that follows `Function` and blanks is seen to do so. -/
lemma isBehindFunction_of_leadsBy {earlier : List Lexeme} {token blanks : List Char}
    (leads : LeadsBy before earlier token blanks) (some_blanks : blanks ≠ []) :
    (Script.ofText text).isBehindFunction (wordsOf .start before).getLast? word = true := by
  have last := leads.getLast?_wordsOf
  obtain ⟨rfl, blank, is_function⟩ := leads
  have gap := slice_behind_word joint
  rw [written_spaces] at gap
  have stop : Piece.stop ⟨.word token, Cursor.start.after earlier⟩
      = (written earlier ++ token).length := by
    rw [Piece.stop, Cursor.start_after_offset, List.length_append]
    rfl
  rw [Cursor.keyword?] at is_function
  split at is_function
  · cases is_function
  rename_i no_member
  have spells : lower token = "function".toList := (Keyword.ofText?_eq_some_iff.1 is_function).symm
  rw [Script.isBehindFunction, last, start]
  dsimp only [Piece.word?, Option.any_some]
  rw [stop, gap, Bool.eq_false_iff.2 no_member, beq_iff_eq.2 spells, List.all_eq_true.2 blank,
    List.isEmpty_eq_false_iff.2 some_blanks]
  rfl

/-- A word is seen to follow `Function` where the name of a function can come next. -/
lemma isBehindFunction_iff :
    (Script.ofText text).isBehindFunction (wordsOf .start before).getLast? word = true
      ↔ (Cursor.start.after before).lead = .gap := by
  constructor
  · intro seen
    exact (followsFunction_iff joint).1 (follows_of_isBehindFunction joint start seen)
  · intro gap
    obtain ⟨earlier, token, blanks, leads, some_blanks⟩ := lead_eq_gap_iff.1 gap
    exact isBehindFunction_of_leadsBy joint start leads some_blanks

end

/-! ## Words -/

/-- The parts of a piece that is a word. -/
def Piece.wordParts (piece : Piece) : List Part :=
  piece.word?.elim [] fun _ => piece.parts

/-- A word classified with a look at the word before it has the parts of its piece. -/
lemma partsOfWord_eq {text : List Char} {before behind : List Lexeme} {token : List Char} {word : Word}
    (joint : lexemes text = before ++ .word token :: behind)
    (here : Piece.word? ⟨.word token, Cursor.start.after before⟩ = some word) :
    (Script.ofText text).partsOfWord (wordsOf .start before).getLast? word
      = Piece.parts ⟨.word token, Cursor.start.after before⟩ := by
  have start : word.start = (written before).length := by
    rw [← Option.some.inj here]
    exact Cursor.start_after_offset before
  have seen : (Script.ofText text).isBehindFunction (wordsOf .start before).getLast? word
      = ((Cursor.start.after before).lead == .gap) := by
    rw [Bool.eq_iff_iff, isBehindFunction_iff joint start, beq_iff_eq]
  rw [Script.partsOfWord, seen, ← Option.some.inj here]
  rfl

/-- Word by word, the parts of the words are those of the pieces. -/
lemma wordParts_behind {text : List Char} {before behind : List Lexeme}
    (joint : lexemes text = before ++ behind) :
    (Script.ofText text).wordParts (wordsOf .start before).getLast?
        (wordsOf (Cursor.start.after before) behind)
      = (placed (Cursor.start.after before) behind).flatMap Piece.wordParts := by
  induction behind generalizing before with
  | nil => rfl
  | cons lexeme behind ih =>
    have onward := @ih (before ++ [lexeme]) (by rw [joint, List.append_assoc]; rfl)
    rw [Cursor.after_append, Cursor.after_cons, Cursor.after_nil, wordsOf_append] at onward
    rw [placed_cons, List.flatMap_cons, ← onward]
    cases lexeme with
    | word token =>
      obtain ⟨word, here⟩ : ∃ word, Piece.word? ⟨.word token, Cursor.start.after before⟩ = some word :=
        ⟨_, rfl⟩
      have first := partsOfWord_eq joint here
      have words : ∀ more, wordsOf (Cursor.start.after before) (.word token :: more)
          = word :: wordsOf ((Cursor.start.after before).advance (.word token)) more := by
        intro more
        rw [wordsOf, placed_cons, List.filterMap_cons, here]
        rfl
      have last : (wordsOf .start before ++ wordsOf (Cursor.start.after before) [.word token]).getLast?
          = some word := by
        rw [words]
        exact List.getLast?_concat
      rw [words, last, Piece.wordParts, here, Option.elim_some, ← first]
      rfl
    | _ =>
      have same : wordsOf .start before ++ [] = wordsOf .start before := List.append_nil _
      exact congrArg (fun words => (Script.ofText text).wordParts words.getLast? _) same.symm

/-- The parts of the words of a script are those of its pieces. -/
lemma wordParts_eq (text : List Char) :
    (Script.ofText text).wordParts none (Script.ofText text).scan.words
      = (Script.ofText text).scan.pieces.flatMap Piece.wordParts :=
  wordParts_behind (List.nil_append _).symm

/-! ## All parts -/

/-- The parenthesis that a piece is. -/
def Piece.parenthesis? (piece : Piece) : Option Span :=
  piece.atom?.bind Atom.parenthesis?

/-- A piece has the parts of a word, of punctuation or of a parenthesis. -/
lemma Piece.parts_eq (piece : Piece) :
    piece.parts = (piece.wordParts ++ (piece.punctuation?.map Span.punctuationPart).toList)
      ++ (piece.parenthesis?.map Span.punctuationPart).toList := by
  obtain ⟨lexeme, cursor⟩ := piece
  cases lexeme with
  | word token =>
    show _ = (Piece.parts _ ++ []) ++ []
    rw [List.append_nil, List.append_nil]
  | _ => rfl

/-- An atom is a parenthesis with a partner or without one. -/
lemma Atom.parenthesis?_alone (atom : Atom) : atom.alone.parenthesis? = atom.parenthesis? := by
  cases atom <;> rfl

/-- The parentheses of a script are those of its pieces. -/
lemma filterMap_parenthesis? (text : List Char) :
    (Script.ofText text).scan.atoms.filterMap Atom.parenthesis?
      = (Script.ofText text).scan.pieces.filterMap Piece.parenthesis? := by
  calc (Script.ofText text).scan.atoms.filterMap Atom.parenthesis?
      = ((Script.ofText text).scan.atoms.map Atom.alone).filterMap Atom.parenthesis? := by
        rw [List.filterMap_map]
        exact List.filterMap_congr fun atom _ => atom.parenthesis?_alone.symm
    _ = (Script.ofText text).scan.pieces.filterMap Piece.parenthesis? := by
        rw [map_alone_atoms, List.filterMap_filterMap]
        rfl

/-- The three lists hold the highlighted parts. -/
lemma perm_highlight (text : List Char) :
    ((Script.ofText text).wordParts none (Script.ofText text).scan.words
      ++ (Script.ofText text).scan.punctuation.map Span.punctuationPart
      ++ ((Script.ofText text).scan.atoms.filterMap Atom.parenthesis?).map
        Span.punctuationPart).Perm (Script.ofText text).highlight := by
  have spans : ∀ view : Piece → Option Span,
      ((Script.ofText text).scan.pieces.filterMap view).map Span.punctuationPart
        = (Script.ofText text).scan.pieces.flatMap fun piece =>
            ((view piece).map Span.punctuationPart).toList := by
    intro view
    rw [List.map_filterMap, List.filterMap_eq_flatMap_toList]
  have punctuation : (Script.ofText text).scan.punctuation
      = (Script.ofText text).scan.pieces.filterMap Piece.punctuation? := rfl
  rw [wordParts_eq, punctuation, filterMap_parenthesis?, spans, spans, Script.highlight,
    funext Piece.parts_eq]
  exact ((List.flatMap_append_perm _ _ _).append_right _).trans (List.flatMap_append_perm _ _ _)

/-- Sorting brings entries at different places back into their order. -/
lemma mergeSort_eq_of_perm {α : Type} {place : α → Nat} {all ordered : List α}
    (order : ordered.Pairwise fun entry entry' => place entry < place entry')
    (perm : all.Perm ordered) :
    all.mergeSort (fun entry entry' => place entry ≤ place entry') = ordered := by
  have sorts := (List.mergeSort_perm all fun entry entry' => place entry ≤ place entry').trans perm
  have sorted : (all.mergeSort fun entry entry' => place entry ≤ place entry').Pairwise
      fun entry entry' => place entry ≤ place entry' := by
    refine (List.pairwise_mergeSort ?_ ?_ all).imp fun le => of_decide_eq_true le
    · intro entry entry' entry'' le le'
      exact decide_eq_true (Nat.le_trans (of_decide_eq_true le) (of_decide_eq_true le'))
    · intro entry entry'
      rw [← Bool.decide_or, decide_eq_true_eq]
      exact Nat.le_total _ _
  -- Entries at the same place are the same one.
  have unique : ∀ ⦃entry⦄, entry ∈ ordered → ∀ ⦃entry'⦄, entry' ∈ ordered →
      place entry = place entry' → entry = entry' := by
    apply List.Pairwise.forall_of_forall_of_flip
    · exact fun _ _ _ => rfl
    · exact order.imp fun later same => absurd same (Nat.ne_of_lt later)
    · exact order.imp fun later same => absurd same.symm (Nat.ne_of_lt later)
  apply sorts.eq_of_pairwise _ sorted (order.imp fun later => Nat.le_of_lt later)
  intro entry entry' mem mem' le le'
  exact unique (sorts.mem_iff.1 mem) mem' (Nat.le_antisymm le le')

/-- The parts of a script are those of its words, punctuation and parentheses, in order. -/
theorem highlight_eq_mergedParts (text : List Char) :
    (Script.ofText text).highlight = (Script.ofText text).mergedParts :=
  (mergeSort_eq_of_perm ((pairwise_starts text).imp fun later => later.1) (perm_highlight text)).symm

end KixScript

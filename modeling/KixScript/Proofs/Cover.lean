import KixScript.Highlight
import KixScript.Proofs.Heads
import KixScript.Proofs.Places
import Mathlib.Order.Interval.Set.Defs

/-!
# Highlighting covers the code

The fragments of a token are never empty, so its parts stand one after another from its start to its
stop (`bounds_of_mem_partsFrom`, `pairwise_partsFrom`, `exists_mem_partsFrom`). Every offset lies in
one piece of the text, and the pieces with parts are those that are neither a comment or string nor a
blank or line end (`Lexeme.isCode`). So the parts cover the code and nothing else
(`highlight_covers_code`).
-/

namespace KixScript

/-- Parts of more fragments stand behind the text of the first ones. -/
lemma partsFrom_append (start : Nat) (fragments fragments' : List Fragment) :
    partsFrom start (fragments ++ fragments')
      = partsFrom start fragments
          ++ partsFrom (start + (Fragment.textOf fragments).length) fragments' := by
  induction fragments generalizing start with
  | nil => rfl
  | cons fragment rest ih =>
    rw [List.cons_append, partsFrom, ih, partsFrom, Fragment.textOf_cons, List.length_append,
      Nat.add_assoc]
    rfl

section
variable {fragments : List Fragment} (nonempty : ∀ fragment ∈ fragments, fragment.text ≠ [])
include nonempty

/-- A part is not empty and lies in the text of the fragments. -/
lemma bounds_of_mem_partsFrom {start : Nat} {part : Part} (mem : part ∈ partsFrom start fragments) :
    start ≤ part.start ∧ part.start < part.stop ∧
      part.stop ≤ start + (Fragment.textOf fragments).length := by
  induction fragments generalizing start with
  | nil => cases mem
  | cons fragment rest ih =>
    have some_text := List.length_pos_iff.2 (nonempty fragment List.mem_cons_self)
    rw [Fragment.textOf_cons, List.length_append]
    rw [partsFrom] at mem
    rcases List.mem_cons.1 mem with rfl | mem
    · dsimp only
      omega
    · have bounds := ih (fun other mem => nonempty other (List.mem_cons_of_mem _ mem)) mem
      omega

/-- The parts of fragments follow one another. -/
lemma pairwise_partsFrom (start : Nat) :
    (partsFrom start fragments).Pairwise fun part part' => part.stop ≤ part'.start := by
  induction fragments generalizing start with
  | nil => exact .nil
  | cons fragment rest ih =>
    have nonempty := fun other mem => nonempty other (List.mem_cons_of_mem _ mem)
    exact .cons (fun part mem => (bounds_of_mem_partsFrom nonempty mem).1) (ih nonempty _)

end

/-- The parts of fragments cover their text. -/
lemma exists_mem_partsFrom {fragments : List Fragment} {start offset : Nat} (lower : start ≤ offset)
    (upper : offset < start + (Fragment.textOf fragments).length) :
    ∃ part ∈ partsFrom start fragments, offset ∈ Set.Ico part.start part.stop := by
  induction fragments generalizing start with
  | nil => exact absurd upper (Nat.not_lt.2 lower)
  | cons fragment rest ih =>
    rw [Fragment.textOf_cons, List.length_append] at upper
    rw [partsFrom]
    rcases Nat.lt_or_ge offset (start + fragment.text.length) with here | beyond
    · exact ⟨_, List.mem_cons_self, lower, here⟩
    · obtain ⟨part, mem, covers⟩ := ih beyond (by omega)
      exact ⟨part, List.mem_cons_of_mem _ mem, covers⟩

/-- Blanks and line ends are four characters. -/
lemma isSpace_iff {c : Char} :
    (isBlank c || isLineEnd c) = true ↔ c ∈ [' ', '\t', '\r', '\n'] := by
  simp [isBlank, isLineEnd, or_assoc]

/-- The lexemes that are neither a comment or string nor a blank or line end. -/
def Lexeme.isCode : Lexeme → Bool
  | .word _ => true
  | .punctuation _ => true
  | .opening => true
  | .closing => true
  | .space _ => false
  | .region _ _ _ => false

/-- A lexeme of code has no blank or line end in it. -/
lemma Lexeme.Reads.not_space_of_mem {lexeme : Lexeme} {rest : List Char} (reads : lexeme.Reads rest)
    (code : lexeme.isCode = true) {c : Char} (mem : c ∈ lexeme.text) :
    (isBlank c || isLineEnd c) = false := by
  cases lexeme with
  | word text => exact not_space_of_isWordChar (reads.2.1 c mem)
  | punctuation text =>
    have goes_on := not_endsPunctuation_of_run reads.2 c mem
    simp only [endsPunctuation, Bool.or_eq_false_iff] at goes_on
    rw [Bool.or_eq_false_iff]
    exact goes_on.1.1.1.1.1
  | opening =>
    obtain rfl := List.mem_singleton.1 mem
    rfl
  | closing =>
    obtain rfl := List.mem_singleton.1 mem
    rfl
  | space d => cases code
  | region kind body closed => cases code

section
variable {text : List Char} {piece piece' : Piece} {offset : Nat}

/-- What is read at a joint is a piece there. -/
lemma mem_pieces_of_joint {before behind : List Lexeme} {lexeme : Lexeme}
    (joint : lexemes text = before ++ lexeme :: behind) :
    ⟨lexeme, Cursor.start.after before⟩ ∈ (Script.ofText text).scan.pieces := by
  rw [pieces_ofText, joint, placed_append]
  exact List.mem_append_right _ List.mem_cons_self

/-- What is read at a piece of a text. -/
lemma exists_reads_of_mem_pieces (mem : piece ∈ (Script.ofText text).scan.pieces) :
    ∃ rest, piece.lexeme.Reads rest ∧
      ∀ inside < piece.lexeme.text.length,
        text[piece.start + inside]? = piece.lexeme.text[inside]? := by
  obtain ⟨before, behind, joint, place⟩ := exists_of_mem_placed mem
  have parsed := lexemes_eq_iff.1 joint
  refine ⟨_, parsed.1.reads, ?_⟩
  intro inside bound
  rw [← parsed.2, Piece.start, place, Cursor.start_after_offset, written_append, written_cons,
    List.getElem?_append_right (Nat.le_add_right _ _), Nat.add_sub_cancel_left,
    List.getElem?_append_left bound]

/-- Every offset of a text is covered by a piece. -/
lemma exists_piece_at (bound : offset < text.length) :
    ∃ piece ∈ (Script.ofText text).scan.pieces, offset ∈ Set.Ico piece.start piece.stop := by
  rw [length_eq_of_lexemes rfl] at bound
  obtain ⟨before, lexeme, behind, joint, lower, upper⟩ := exists_lexeme_at (Nat.succ_pos offset) bound
  refine ⟨⟨lexeme, Cursor.start.after before⟩, ?_, ?_⟩
  · exact mem_pieces_of_joint joint
  · rw [Piece.start, Piece.stop, Cursor.start_after_offset]
    exact ⟨Nat.le_of_lt_succ lower, upper⟩

/-- No two pieces share an offset. -/
lemma piece_eq_of_covers (mem : piece ∈ (Script.ofText text).scan.pieces)
    (mem' : piece' ∈ (Script.ofText text).scan.pieces)
    (covers : offset ∈ Set.Ico piece.start piece.stop)
    (covers' : offset ∈ Set.Ico piece'.start piece'.stop) : piece = piece' := by
  have order := pairwise_placed .start (lexemes text)
  have ahead : (placed .start (lexemes text)).Pairwise fun piece piece' =>
      offset ∈ Set.Ico piece.start piece.stop → offset ∈ Set.Ico piece'.start piece'.stop →
        piece = piece' :=
    order.imp fun apart covers covers' =>
      absurd (Nat.lt_of_lt_of_le covers.2 apart) (Nat.not_lt.2 covers'.1)
  have back : (placed .start (lexemes text)).Pairwise fun piece' piece =>
      offset ∈ Set.Ico piece.start piece.stop → offset ∈ Set.Ico piece'.start piece'.stop →
        piece = piece' :=
    order.imp fun apart covers covers' =>
      absurd (Nat.lt_of_lt_of_le covers'.2 apart) (Nat.not_lt.2 covers.1)
  exact ahead.forall_of_forall_of_flip (fun _ _ _ _ => rfl) back mem mem' covers covers'

/-- The fragments of a piece are its text, if it is code. -/
lemma Piece.textOf_fragments_eq (piece : Piece) :
    Fragment.textOf piece.fragments = if piece.lexeme.isCode then piece.lexeme.text else [] := by
  obtain ⟨lexeme, cursor⟩ := piece
  cases lexeme with
  | word word => exact fragments_text _ word
  | punctuation run => exact List.append_nil run
  | _ => rfl

/-- No fragment of a piece is empty. -/
lemma Piece.ne_nil_of_mem_fragments {rest : List Char} (reads : piece.lexeme.Reads rest)
    {fragment : Fragment} (mem : fragment ∈ piece.fragments) : fragment.text ≠ [] := by
  obtain ⟨lexeme, cursor⟩ := piece
  cases lexeme with
  | word word => exact (Fragment.wellFormed_of_mem_fragments mem).nonempty
  | punctuation run =>
    obtain rfl := List.mem_singleton.1 mem
    exact reads.1
  | opening =>
    obtain rfl := List.mem_singleton.1 mem
    exact List.cons_ne_nil _ _
  | closing =>
    obtain rfl := List.mem_singleton.1 mem
    exact List.cons_ne_nil _ _
  | space c => cases mem
  | region kind body closed => cases mem

/-- The parts of a piece are not empty, and lie in the piece. Only code has any. -/
lemma bounds_of_mem_parts (mem : piece ∈ (Script.ofText text).scan.pieces) {part : Part}
    (part_mem : part ∈ piece.parts) :
    piece.lexeme.isCode = true ∧ piece.start ≤ part.start ∧ part.start < part.stop ∧
      part.stop ≤ piece.stop := by
  obtain ⟨rest, reads, _⟩ := exists_reads_of_mem_pieces mem
  have bounds := bounds_of_mem_partsFrom (fun _ => Piece.ne_nil_of_mem_fragments reads) part_mem
  rw [Piece.textOf_fragments_eq] at bounds
  cases code : piece.lexeme.isCode with
  | true =>
    rw [if_pos code] at bounds
    exact ⟨rfl, bounds⟩
  | false =>
    rw [if_neg (ne_true_of_eq_false code), List.length_nil] at bounds
    omega

/-- The highlighted parts follow one another. -/
lemma pairwise_highlight (text : List Char) :
    (Script.ofText text).highlight.Pairwise fun part part' => part.stop ≤ part'.start := by
  rw [Script.highlight, List.pairwise_flatMap]
  refine ⟨?_, ?_⟩
  · intro piece mem
    obtain ⟨rest, reads, _⟩ := exists_reads_of_mem_pieces mem
    exact pairwise_partsFrom (fun _ => Piece.ne_nil_of_mem_fragments reads) piece.start
  · refine (pairwise_placed .start (lexemes text)).imp_of_mem ?_
    intro piece piece' mem mem' order part part_mem part' part_mem'
    obtain ⟨_, _, _, stop⟩ := bounds_of_mem_parts mem part_mem
    obtain ⟨_, start, _⟩ := bounds_of_mem_parts mem' part_mem'
    omega

/-- The parts of code cover it. -/
lemma exists_part_at (mem : piece ∈ (Script.ofText text).scan.pieces)
    (code : piece.lexeme.isCode = true) (covers : offset ∈ Set.Ico piece.start piece.stop) :
    ∃ part ∈ (Script.ofText text).highlight, offset ∈ Set.Ico part.start part.stop := by
  have upper : offset < piece.start + (Fragment.textOf piece.fragments).length := by
    rw [Piece.textOf_fragments_eq, if_pos code]
    exact covers.2
  obtain ⟨part, part_mem, covers⟩ := exists_mem_partsFrom covers.1 upper
  exact ⟨part, List.mem_flatMap.2 ⟨piece, mem, part_mem⟩, covers⟩

/-- The character at an offset is one of the piece that covers it. -/
lemma exists_char_at (mem : piece ∈ (Script.ofText text).scan.pieces)
    (covers : offset ∈ Set.Ico piece.start piece.stop) :
    ∃ c ∈ piece.lexeme.text, text[offset]? = some c := by
  obtain ⟨rest, _, same⟩ := exists_reads_of_mem_pieces mem
  obtain ⟨inside, rfl⟩ := Nat.exists_eq_add_of_le covers.1
  have bound : inside < piece.lexeme.text.length := Nat.lt_of_add_lt_add_left covers.2
  refine ⟨_, List.getElem_mem bound, ?_⟩
  rw [same inside bound, List.getElem?_eq_getElem bound]

/-- An offset lies in a comment or string if the piece that covers it is one. -/
lemma exists_region_at_iff (mem : piece ∈ (Script.ofText text).scan.pieces)
    (covers : offset ∈ Set.Ico piece.start piece.stop) :
    (∃ region ∈ (Script.ofText text).scan.regions, offset ∈ Set.Ico region.start region.stop)
      ↔ ∃ kind body closed, piece.lexeme = .region kind body closed := by
  constructor
  · rintro ⟨region, region_mem, inside⟩
    obtain ⟨piece', mem', found⟩ := List.mem_filterMap.1 region_mem
    obtain ⟨body, same, start, stop⟩ := Piece.region?_eq_some found
    rw [start, stop] at inside
    obtain rfl := piece_eq_of_covers mem mem' covers inside
    exact ⟨_, body, _, same⟩
  · rintro ⟨kind, body, closed, same⟩
    have found : piece.region? = some ⟨kind, piece.start, piece.stop, closed⟩ := by
      rw [Piece.region?, same]
    exact ⟨_, List.mem_filterMap.2 ⟨piece, mem, found⟩, covers⟩

/-- A piece is code if the characters in it are neither blanks nor line ends and lie in no comment or
string. -/
lemma isCode_iff_at (mem : piece ∈ (Script.ofText text).scan.pieces)
    (covers : offset ∈ Set.Ico piece.start piece.stop) :
    piece.lexeme.isCode = true ↔ ∃ c, text[offset]? = some c ∧ c ∉ [' ', '\t', '\r', '\n'] ∧
      ∀ region ∈ (Script.ofText text).scan.regions, offset ∉ Set.Ico region.start region.stop := by
  obtain ⟨rest, reads, _⟩ := exists_reads_of_mem_pieces mem
  obtain ⟨c, c_mem, at_offset⟩ := exists_char_at mem covers
  have in_region := exists_region_at_iff mem covers
  constructor
  · intro code
    refine ⟨c, at_offset, ?_, ?_⟩
    · rw [← isSpace_iff, reads.not_space_of_mem code c_mem]
      exact Bool.false_ne_true
    · intro region region_mem inside
      obtain ⟨_, _, _, same⟩ := in_region.1 ⟨region, region_mem, inside⟩
      rw [same] at code
      cases code
  · rintro ⟨d, at_offset', no_space, outside⟩
    obtain rfl := Option.some.inj (at_offset.symm.trans at_offset')
    cases is_lexeme : piece.lexeme with
    | space d =>
      rw [is_lexeme] at reads c_mem
      obtain rfl := List.mem_singleton.1 c_mem
      exact absurd (isSpace_iff.1 reads) no_space
    | region kind body closed =>
      obtain ⟨region, region_mem, inside⟩ := in_region.2 ⟨kind, body, closed, is_lexeme⟩
      exact absurd inside (outside region region_mem)
    | _ => rfl

/-- A part lies in a piece of code. -/
lemma exists_piece_of_part {part : Part} (mem : part ∈ (Script.ofText text).highlight) :
    ∃ piece ∈ (Script.ofText text).scan.pieces, piece.lexeme.isCode = true ∧
      piece.start ≤ part.start ∧ part.start < part.stop ∧ part.stop ≤ piece.stop := by
  obtain ⟨piece, mem, part_mem⟩ := List.mem_flatMap.1 mem
  exact ⟨piece, mem, bounds_of_mem_parts mem part_mem⟩

/-- No part is empty. -/
lemma start_lt_stop_of_part {part : Part} (mem : part ∈ (Script.ofText text).highlight) :
    part.start < part.stop := by
  obtain ⟨_, _, _, _, some_text, _⟩ := exists_piece_of_part mem
  exact some_text

/-- Every part starts behind those before it. -/
lemma pairwise_starts (text : List Char) :
    (Script.ofText text).highlight.Pairwise
      fun part part' => part.start < part'.start ∧ part.stop ≤ part'.start := by
  refine (pairwise_highlight text).imp_of_mem ?_
  intro part part' mem _ order
  exact ⟨Nat.lt_of_lt_of_le (start_lt_stop_of_part mem) order, order⟩

end

/-- The parts of a script are not empty, stand in order and do not overlap. They cover the characters
that are neither a blank nor a line end and lie in no comment or string, and nothing else. -/
theorem highlight_covers_code (text : List Char) :
    (∀ part ∈ (Script.ofText text).highlight, part.start < part.stop) ∧
    (Script.ofText text).highlight.Pairwise
      (fun part part' => part.start < part'.start ∧ part.stop ≤ part'.start) ∧
    ∀ offset, (∃ part ∈ (Script.ofText text).highlight, offset ∈ Set.Ico part.start part.stop) ↔
      ∃ c, text[offset]? = some c ∧ c ∉ [' ', '\t', '\r', '\n'] ∧
        ∀ region ∈ (Script.ofText text).scan.regions, offset ∉ Set.Ico region.start region.stop := by
  refine ⟨fun part => start_lt_stop_of_part, pairwise_starts text, fun offset => ⟨?_, ?_⟩⟩
  · rintro ⟨part, part_mem, covers⟩
    obtain ⟨piece, mem, code, start, _, stop⟩ := exists_piece_of_part part_mem
    have covers : offset ∈ Set.Ico piece.start piece.stop :=
      ⟨Nat.le_trans start covers.1, Nat.lt_of_lt_of_le covers.2 stop⟩
    exact (isCode_iff_at mem covers).1 code
  · rintro ⟨c, at_offset, seen⟩
    obtain ⟨bound, _⟩ := List.getElem?_eq_some_iff.1 at_offset
    obtain ⟨piece, mem, covers⟩ := exists_piece_at bound
    exact exists_part_at mem ((isCode_iff_at mem covers).2 ⟨c, at_offset, seen⟩) covers

end KixScript

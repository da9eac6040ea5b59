import KixScript.Proofs.Commands
import KixScript.Proofs.Sigils
import KixScript.Proofs.Symbols
import Mathlib.Data.List.Induction

/-!
# The outline among the highlighted parts

Only the first fragment of a word can declare a function (`not_declares_of_mem_tail`), and only where
the word `Function` and blanks stand before it (`lead_eq_gap_iff`). Only a fragment that begins with a
colon is a label, and what surrounds a word does not matter to it (`fragments_of_label`). So the
outline names what is highlighted as a declaration, and what is highlighted as a label at the head of
a word (`outline_agrees_with_highlight`).
-/

namespace KixScript

namespace Script

/-- The word `Function`, which is no member of an object, stands before an offset, with one or more
blanks between them and nothing else. -/
def FollowsFunction (script : Script) (offset : Nat) : Prop :=
  ∃ word ∈ script.scan.words, word.member = false ∧ lower word.text = "function".toList ∧
    word.stop < offset ∧ ∀ c ∈ script.slice word.stop offset, isBlank c = true

/-- Whether a word begins at an offset. -/
def beginsWord (script : Script) (offset : Nat) : Bool :=
  script.scan.words.any (·.start == offset)

/-- A part as the name of a function. -/
def functionEntry (script : Script) (part : Part) : OutlineEntry :=
  ⟨script.slice part.start part.stop, part.start⟩

/-- A part as a label, which is named without its colon. -/
def labelEntry (script : Script) (part : Part) : OutlineEntry :=
  ⟨(script.slice part.start part.stop).tail, part.start⟩

/-- The outline names the parts that are highlighted as declarations, which are those behind the word
`Function`, and the parts at the head of a word that are highlighted as labels. -/
structure OutlineAgrees (script : Script) : Prop where
  functions : script.outline.functions
    = (script.highlight.filter (·.tokenClass == .functionDeclaration)).map script.functionEntry
  follows : ∀ part ∈ script.highlight, part.tokenClass = .functionDeclaration →
    script.FollowsFunction part.start
  declares : ∀ word ∈ script.scan.words, script.FollowsFunction word.start →
    word.text.takeWhile isUserChar ≠ [] → isCommandName (word.text.takeWhile isUserChar) = false →
      ⟨word.start, word.start + (word.text.takeWhile isUserChar).length, .functionDeclaration, .name⟩
        ∈ script.highlight
  labels : script.outline.labels
    = (script.highlight.filter fun part =>
        part.tokenClass == .label && script.beginsWord part.start).map script.labelEntry
  colons : ∀ part ∈ script.highlight, part.tokenClass = .label → script.text[part.start]? = some ':'

end Script

/-! ## What a word can declare -/

section
variable {place : Surroundings} {token : List Char}

/-- A name declares nothing if `Function` does not come before it. -/
lemma Fragment.classOfName_ne_of_plain (no_lead : place.afterFunction = false) (name : List Char) :
    classOfName place name ≠ .functionDeclaration := by
  rw [classOfName, if_neg (ne_true_of_eq_false no_lead)]
  repeat' split
  all_goals decide

/-- Macros declare nothing. -/
lemma Fragment.MacroHead.not_declares {run : List Char} {head : List Fragment}
    (shape : MacroHead run head) : ∀ fragment ∈ head, fragment.tokenClass ≠ .functionDeclaration := by
  cases shape with
  | _ => simp

/-- A head declares nothing if `Function` does not come before it. -/
lemma Fragment.IsHead.not_declares {head : List Fragment} {behind : List Char}
    (is_head : IsHead place head behind) (no_lead : place.afterFunction = false) :
    ∀ fragment ∈ head, fragment.tokenClass ≠ .functionDeclaration := by
  cases is_head with
  | ofMacro is_run shape => exact shape.not_declares
  | simple is_simple =>
    refine List.forall_mem_singleton.2 ?_
    cases is_simple with
    | name is_run => exact classOfName_ne_of_plain no_lead _
    | _ => rintro ⟨⟩

/-- A token declares nothing if `Function` does not come before it. -/
lemma not_declares_of_plain (no_lead : place.afterFunction = false) (token : List Char) :
    ∀ fragment ∈ fragments place token, fragment.tokenClass ≠ .functionDeclaration := by
  fun_induction fragments place token with
  | case1 => exact List.forall_mem_nil _
  | case2 place c rest ih =>
    have is_head := Fragment.isHead_ofHead place c rest
    exact List.forall_mem_append.2 ⟨is_head.not_declares no_lead, ih rfl⟩

/-- Only the first fragment of a word can be a declaration. -/
lemma not_declares_of_mem_tail {fragment : Fragment} {rest : List Fragment}
    (first : fragments place token = fragment :: rest) :
    ∀ other ∈ rest, other.tokenClass ≠ .functionDeclaration := by
  cases token with
  | nil =>
    rw [fragments] at first
    cases first
  | cons c behind =>
    have others := @not_declares_of_plain .plain rfl (Fragment.ofHead place c behind).2
    have is_head := Fragment.isHead_ofHead place c behind
    rw [fragments] at first
    generalize (Fragment.ofHead place c behind).1 = head at first is_head
    cases is_head with
    | simple is_simple =>
      obtain ⟨-, rfl⟩ := List.cons.inj first
      exact others
    | ofMacro is_run shape =>
      have quiet : ∀ other ∈ fragment :: rest, other.tokenClass ≠ .functionDeclaration := by
        rw [← first]
        exact List.forall_mem_append.2 ⟨shape.not_declares, others⟩
      exact (List.forall_mem_cons.1 quiet).2

/-- What surrounds a word that begins with a colon does not matter. -/
lemma fragments_colon (place : Surroundings) (rest : List Char) :
    fragments place (':' :: rest) = fragments .plain (':' :: rest) := by
  rw [fragments, fragments]
  rfl

/-- A word that begins with a name has it as its first fragment. -/
lemma exists_fragments_of_name (place : Surroundings) (named : token.takeWhile isUserChar ≠ []) :
    ∃ rest, fragments place token
      = ⟨token.takeWhile isUserChar, Fragment.classOfName place (token.takeWhile isUserChar), .name⟩
          :: rest := by
  cases token with
  | nil => exact absurd rfl named
  | cons c behind =>
    cases user : isUserChar c with
    | true =>
      rw [fragments, Fragment.ofHead_of_isUserChar user, List.takeWhile_cons_of_pos user]
      exact ⟨_, rfl⟩
    | false => exact absurd (List.takeWhile_cons_of_neg (ne_true_of_eq_false user)) named

/-- A word is a label wherever it stands. -/
lemma fragments_of_label {fragment : Fragment} {rest : List Fragment}
    (first : fragments place token = fragment :: rest) (is_label : fragment.tokenClass = .label)
    (place' : Surroundings) : fragments place' token = fragment :: rest := by
  obtain ⟨c, run, _, head, colon, _⟩ := exists_head_of_fragments first
  cases token with
  | nil => cases head
  | cons d more =>
    obtain rfl := Option.some.inj head
    rw [colon is_label] at first ⊢
    rw [fragments_colon, ← fragments_colon place, first]

end

section
variable {p : Part → Bool} {start : Nat} {fragment : Fragment} {rest : List Fragment}
  (others : ∀ part ∈ partsFrom (start + fragment.text.length) rest, p part = false)
include others

/-- Where only the first part can be found, it is. -/
lemma filter_partsFrom_first
    (holds : p ⟨start, start + fragment.text.length, fragment.tokenClass, fragment.role⟩ = true) :
    (partsFrom start (fragment :: rest)).filter p
      = [⟨start, start + fragment.text.length, fragment.tokenClass, fragment.role⟩] := by
  rw [partsFrom, List.filter_cons_of_pos holds,
    List.filter_eq_nil_iff.2 fun part mem => ne_true_of_eq_false (others part mem)]

/-- Where only the first part can be found and fails, none is. -/
lemma filter_partsFrom_none
    (fails : p ⟨start, start + fragment.text.length, fragment.tokenClass, fragment.role⟩ = false) :
    (partsFrom start (fragment :: rest)).filter p = [] := by
  rw [partsFrom, List.filter_cons_of_neg (ne_true_of_eq_false fails),
    List.filter_eq_nil_iff.2 fun part mem => ne_true_of_eq_false (others part mem)]

end

/-! ## The word before a declaration -/

/-- The last lexemes are the word `Function`, which is no member of an object, and blanks. -/
structure LeadsBy (before earlier : List Lexeme) (token blanks : List Char) : Prop where
  split : before = earlier ++ .word token :: blanks.map .space
  blank : ∀ c ∈ blanks, isBlank c = true
  is_function : (Cursor.start.after earlier).keyword? token = some (.opener .function)

section
variable {before earlier : List Lexeme} {token blanks : List Char}

/-- What leads to a name is the word, or a gap behind it. -/
lemma LeadsBy.lead_eq (leads : LeadsBy before earlier token blanks) :
    (Cursor.start.after before).lead = if blanks = [] then .word else .gap := by
  obtain ⟨rfl, blank, is_function⟩ := leads
  induction blanks using List.reverseRecOn with
  | nil =>
    rw [if_pos rfl, Cursor.after_append]
    exact if_pos is_function
  | append_singleton blanks c ih =>
    obtain ⟨blanks_blank, c_blank⟩ := List.forall_mem_append.1 blank
    have led : (Cursor.start.after (earlier ++ .word token :: blanks.map .space)).lead ≠ .absent := by
      rw [ih blanks_blank]
      split
      · decide
      · decide
    rw [List.map_append, ← List.cons_append, ← List.append_assoc, Cursor.after_append,
      if_neg (List.append_ne_nil_of_right_ne_nil _ (List.cons_ne_nil _ _))]
    refine if_pos (Bool.and_eq_true_iff.2 ⟨c_blank c List.mem_cons_self, ?_⟩)
    exact bne_iff_ne.2 led

/-- Where something leads to a name, a word does. -/
lemma exists_leadsBy (led : (Cursor.start.after before).lead ≠ .absent) :
    ∃ earlier token blanks, LeadsBy before earlier token blanks := by
  induction before using List.reverseRecOn with
  | nil => exact absurd rfl led
  | append_singleton before lexeme ih =>
    rw [Cursor.after_append] at led
    change Cursor.leadAfter _ _ ≠ _ at led
    cases lexeme with
    | word token =>
      rw [Cursor.leadAfter] at led
      split at led
      · rename_i is_function
        exact ⟨before, token, [], rfl, List.forall_mem_nil _, is_function⟩
      · exact absurd rfl led
    | space c =>
      rw [Cursor.leadAfter] at led
      split at led
      · rename_i goes_on
        obtain ⟨c_blank, still_led⟩ := Bool.and_eq_true_iff.1 goes_on
        obtain ⟨earlier, token, blanks, rfl, blank, is_function⟩ := ih (bne_iff_ne.1 still_led)
        refine ⟨earlier, token, blanks ++ [c], ?_, ?_, is_function⟩
        · rw [List.map_append, List.append_assoc, List.cons_append]
          rfl
        · exact List.forall_mem_append.2 ⟨blank, List.forall_mem_singleton.2 c_blank⟩
      · exact absurd rfl led
    | _ => exact absurd rfl led

/-- The name of a function can come next exactly behind `Function` and some blanks. -/
lemma lead_eq_gap_iff :
    (Cursor.start.after before).lead = .gap ↔
      ∃ earlier token blanks, LeadsBy before earlier token blanks ∧ blanks ≠ [] := by
  constructor
  · intro gap
    obtain ⟨earlier, token, blanks, leads⟩ := exists_leadsBy (by rw [gap]; decide)
    refine ⟨earlier, token, blanks, leads, ?_⟩
    rintro rfl
    rw [leads.lead_eq] at gap
    cases gap
  · rintro ⟨earlier, token, blanks, leads, some_blanks⟩
    rw [leads.lead_eq, if_neg some_blanks]

/-- What is written with blanks alone is made of them. -/
lemma spaces_of_written {middle rest : List Lexeme} (stream : Stream (middle ++ rest))
    (blank : ∀ c ∈ written middle, isBlank c = true) : middle = (written middle).map .space := by
  induction middle with
  | nil => rfl
  | cons lexeme middle ih =>
    rw [written_cons] at blank ⊢
    obtain ⟨lexeme_blank, middle_blank⟩ := List.forall_mem_append.1 blank
    cases stream with
    | cons reads stream =>
      obtain ⟨c, more, same⟩ := List.exists_cons_of_ne_nil reads.text_ne_nil
      have head : lexeme.text.head? = some c := by rw [same]; rfl
      obtain rfl := reads.isBlank_of_head head (lexeme_blank c (same ▸ List.mem_cons_self))
      rw [List.map_append, ← ih stream middle_blank]
      rfl

end

section
variable {text : List Char}

/-- A word is read behind the lexemes before it. -/
lemma exists_joint_of_word {word : Word} (mem : word ∈ (Script.ofText text).scan.words) :
    ∃ before behind, lexemes text = before ++ .word word.text :: behind ∧
      word.start = (written before).length ∧
      word.stop = (written before).length + word.text.length ∧
      word.member = (Cursor.start.after before).afterDot := by
  obtain ⟨piece, piece_mem, here⟩ := List.mem_filterMap.1 mem
  obtain ⟨is_word, start, stop, _, member⟩ := Piece.word?_eq_some here
  obtain ⟨before, behind, joint, place⟩ := exists_of_mem_placed piece_mem
  rw [is_word] at joint
  rw [Piece.start, place, Cursor.start_after_offset] at start
  rw [Piece.stop, place, is_word, Cursor.start_after_offset] at stop
  rw [place] at member
  exact ⟨before, behind, joint, start, stop, member⟩

/-- A word among lexemes is written behind those before it. -/
lemma length_written_word (earlier middle : List Lexeme) (token : List Char) :
    (written (earlier ++ .word token :: middle)).length
      = (written earlier ++ token).length + (written middle).length := by
  rw [written_append, written_cons, ← List.append_assoc, List.length_append]
  rfl

/-- What stands between a word and a later offset. -/
lemma slice_behind_word {earlier middle behind : List Lexeme} {token : List Char}
    (joint : lexemes text = (earlier ++ .word token :: middle) ++ behind) :
    (Script.ofText text).slice (written earlier ++ token).length
      (written (earlier ++ .word token :: middle)).length = written middle := by
  have parts : text = (written earlier ++ token) ++ (written middle ++ written behind) := by
    rw [List.append_assoc, List.cons_append] at joint
    rw [text_of_joint joint, written_append, List.append_assoc]
    rfl
  rw [length_written_word, slice_between parts]

section
variable {before behind : List Lexeme} (joint : lexemes text = before ++ behind)
include joint

/-- A word with a gap behind it leads to a name that follows it. -/
lemma followsFunction_of_leadsBy {earlier : List Lexeme} {token blanks : List Char}
    (leads : LeadsBy before earlier token blanks) (some_blanks : blanks ≠ []) :
    (Script.ofText text).FollowsFunction (written before).length := by
  obtain ⟨rfl, blank, is_function⟩ := leads
  have piece_mem := mem_pieces_of_joint (joint.trans (List.append_assoc _ _ _))
  have stop : Piece.stop ⟨.word token, Cursor.start.after earlier⟩
      = (written earlier ++ token).length := by
    rw [Piece.stop, Cursor.start_after_offset, List.length_append]
    rfl
  rw [Cursor.keyword?] at is_function
  split at is_function
  · cases is_function
  rename_i no_member
  refine ⟨_, List.mem_filterMap.2 ⟨_, piece_mem, rfl⟩, Bool.eq_false_iff.2 no_member,
    (Keyword.ofText?_eq_some_iff.1 is_function).symm, ?_, ?_⟩
  · dsimp only
    rw [stop, length_written_word, written_spaces]
    exact Nat.lt_add_of_pos_right (List.length_pos_iff.2 some_blanks)
  · dsimp only
    rw [stop, slice_behind_word joint, written_spaces]
    exact blank

/-- A name that follows `Function` is led to by it. -/
lemma exists_leadsBy_of_followsFunction
    (follows : (Script.ofText text).FollowsFunction (written before).length) :
    ∃ earlier token blanks, LeadsBy before earlier token blanks ∧ blanks ≠ [] := by
  obtain ⟨word, mem, no_member, spells, stop_lt, blank⟩ := follows
  obtain ⟨earlier, later, joint', start, stop, member⟩ := exists_joint_of_word mem
  rw [← List.length_append] at stop
  -- The word stands among the lexemes before the offset, or it would not stop there.
  have inside : ∃ middle, before = earlier ++ .word word.text :: middle := by
    rcases List.append_eq_append_iff.1 (joint'.symm.trans joint) with
      ⟨middle, before_eq, later_eq⟩ | ⟨middle, earlier_eq, later_eq⟩
    · cases middle with
      | nil =>
        rw [before_eq, List.append_nil, stop, List.length_append] at stop_lt
        omega
      | cons lexeme middle =>
        obtain ⟨rfl, -⟩ := List.cons.inj later_eq
        exact ⟨middle, before_eq⟩
    · rw [stop, earlier_eq, written_append, List.length_append, List.length_append] at stop_lt
      omega
  obtain ⟨middle, rfl⟩ := inside
  rw [stop, slice_behind_word joint] at blank
  have spaces : middle = (written middle).map .space := by
    have stream := (lexemes_eq_iff.1 joint).1
    rw [List.append_assoc] at stream
    cases stream.of_append_right with
    | cons _ stream => exact spaces_of_written stream blank
  refine ⟨earlier, word.text, written middle, ⟨by rw [← spaces], blank, ?_⟩, ?_⟩
  · rw [Cursor.keyword?, ← member, no_member, if_neg Bool.false_ne_true]
    exact Keyword.ofText?_eq_some_iff.2 spells.symm
  · intro nothing
    rw [length_written_word, nothing, stop] at stop_lt
    exact Nat.lt_irrefl _ stop_lt

/-- A name can be declared exactly where it follows the word `Function`. -/
lemma followsFunction_iff :
    (Script.ofText text).FollowsFunction (written before).length ↔
      (Cursor.start.after before).lead = .gap := by
  rw [lead_eq_gap_iff]
  constructor
  · exact exists_leadsBy_of_followsFunction joint
  · rintro ⟨earlier, token, blanks, leads, some_blanks⟩
    exact followsFunction_of_leadsBy joint leads some_blanks

end

/-! ## Piece by piece -/

namespace Piece
variable {cursor : Cursor} {token : List Char} {fragment : Fragment} {rest : List Fragment}

/-- A word declares its first fragment if that is a declaration. -/
lemma declared_word (first : Piece.fragments ⟨.word token, cursor⟩ = fragment :: rest) :
    Piece.declared ⟨.word token, cursor⟩
      = if fragment.tokenClass = .functionDeclaration then [⟨fragment.text, cursor.offset⟩]
        else [] := by
  rw [declared, declaredName?, first]
  dsimp only [word?]
  split
  · rfl
  · rfl

/-- A word names its first fragment if that is a label. -/
lemma label_word (first : KixScript.fragments .plain token = fragment :: rest) :
    Piece.label ⟨.word token, cursor⟩
      = if fragment.tokenClass = .label then [⟨fragment.text.tail, cursor.offset⟩] else [] := by
  rw [label, word?]
  dsimp only [Option.bind_some]
  rw [Word.label?, first]
  dsimp only
  split
  · rfl
  · rfl

end Piece

section
variable {piece : Piece} (mem : piece ∈ (Script.ofText text).scan.pieces)
include mem

/-- The text of the first fragment of a word. -/
lemma slice_first {token : List Char} (is_word : piece.lexeme = .word token) {place : Surroundings}
    {fragment : Fragment} {rest : List Fragment} (first : fragments place token = fragment :: rest) :
    (Script.ofText text).slice piece.start (piece.start + fragment.text.length) = fragment.text := by
  obtain ⟨⟨front, back, parts, start⟩, _⟩ := exists_written mem is_word first
  rw [start, slice_between parts]

/-- The declaration that a piece names is the part that is highlighted as one. -/
lemma declared_eq :
    piece.declared = (piece.parts.filter (·.tokenClass == .functionDeclaration)).map
      (Script.ofText text).functionEntry := by
  obtain ⟨lexeme, cursor⟩ := piece
  cases lexeme with
  | word token =>
    cases first : Piece.fragments ⟨.word token, cursor⟩ with
    | nil =>
      rw [Piece.declared, Piece.declaredName?, Piece.parts, first]
      rfl
    | cons fragment rest =>
      have others : ∀ part ∈ partsFrom (Piece.start ⟨.word token, cursor⟩ + fragment.text.length) rest,
          (part.tokenClass == .functionDeclaration) = false := by
        intro part part_mem
        obtain ⟨before, other, behind, rfl, rfl⟩ := exists_of_mem_partsFrom part_mem
        exact beq_false_of_ne (not_declares_of_mem_tail first other List.mem_append_cons_self)
      rw [Piece.declared_word first, Piece.parts, first]
      by_cases declares : fragment.tokenClass = .functionDeclaration
      · rw [if_pos declares, filter_partsFrom_first others (beq_iff_eq.2 declares),
          List.map_singleton, Script.functionEntry, slice_first mem rfl first]
        rfl
      · rw [if_neg declares, filter_partsFrom_none others (beq_false_of_ne declares), List.map_nil]
  | _ => rfl

/-- No word begins inside another one. -/
lemma not_beginsWord {offset : Nat} (inside : piece.start < offset) (bound : offset < piece.stop) :
    (Script.ofText text).beginsWord offset = false := by
  rw [Script.beginsWord, List.any_eq_false]
  intro word word_mem start
  obtain ⟨cursor, piece_mem, _, start', _⟩ := exists_piece_of_word word_mem
  rw [beq_iff_eq, start'] at start
  have same := piece_eq_of_covers mem piece_mem ⟨Nat.le_of_lt inside, bound⟩
    ⟨Nat.le_of_eq start, start ▸ (lexemes_stream text).start_lt_stop piece_mem⟩
  rw [same, Piece.start, start] at inside
  exact Nat.lt_irrefl _ inside

/-- Only the first part of a word begins it. -/
lemma not_beginsWord_of_mem_rest {token : List Char} (is_word : piece.lexeme = .word token)
    {fragment : Fragment} {rest : List Fragment} (first : piece.fragments = fragment :: rest) :
    ∀ part ∈ partsFrom (piece.start + fragment.text.length) rest,
      (Script.ofText text).beginsWord part.start = false := by
  intro part part_mem
  have nonempty : ∀ other ∈ fragment :: rest, other.text ≠ [] := by
    intro other other_mem
    rw [← first, Piece.fragments, is_word] at other_mem
    exact (Fragment.wellFormed_of_mem_fragments other_mem).nonempty
  have behind := bounds_of_mem_partsFrom (List.forall_mem_cons.1 nonempty).2 part_mem
  have some_text := List.length_pos_iff.2 (nonempty fragment List.mem_cons_self)
  have inside : part ∈ piece.parts := by
    rw [Piece.parts, first]
    exact List.mem_cons_of_mem _ part_mem
  have bounds := bounds_of_mem_parts mem inside
  exact not_beginsWord mem (by omega) (by omega)

/-- The label that a piece names is the part that is highlighted as one where the piece begins. -/
lemma label_eq :
    piece.label = (piece.parts.filter fun part =>
        part.tokenClass == .label && (Script.ofText text).beginsWord part.start).map
      (Script.ofText text).labelEntry := by
  obtain ⟨lexeme, cursor⟩ := piece
  cases lexeme with
  | word token =>
    cases first : Piece.fragments ⟨.word token, cursor⟩ with
    | nil =>
      have whole : Fragment.textOf [] = token := first ▸ fragments_text _ token
      obtain rfl : token = [] := whole.symm
      rw [Piece.parts, first, Piece.label, Piece.word?]
      dsimp only [Option.bind_some]
      rw [Word.label?, fragments]
      rfl
    | cons fragment rest =>
      have others : ∀ part ∈ partsFrom (Piece.start ⟨.word token, cursor⟩ + fragment.text.length) rest,
          (part.tokenClass == .label && (Script.ofText text).beginsWord part.start) = false := by
        intro part part_mem
        rw [not_beginsWord_of_mem_rest mem rfl first part part_mem, Bool.and_false]
      rw [Piece.parts, first]
      by_cases is_label : fragment.tokenClass = .label
      · have begins : (Script.ofText text).beginsWord (Piece.start ⟨.word token, cursor⟩) = true := by
          rw [Script.beginsWord, List.any_eq_true]
          exact ⟨_, List.mem_filterMap.2 ⟨_, mem, rfl⟩, beq_self_eq_true _⟩
        rw [Piece.label_word (fragments_of_label first is_label .plain), if_pos is_label,
          filter_partsFrom_first others (Bool.and_eq_true_iff.2 ⟨beq_iff_eq.2 is_label, begins⟩),
          List.map_singleton, Script.labelEntry, slice_first mem rfl first]
        rfl
      · have nothing : Piece.label ⟨.word token, cursor⟩ = [] := by
          rw [List.eq_nil_iff_forall_not_mem]
          intro entry named
          obtain ⟨_, other, _, is_word, first', is_label', _⟩ := Piece.exists_of_mem_label named
          obtain rfl := Lexeme.word.inj is_word
          have same := first.symm.trans (fragments_of_label first' is_label' _)
          exact is_label ((List.cons.inj same).1 ▸ is_label')
        have fails := beq_false_of_ne is_label
        rw [nothing, filter_partsFrom_none others (by rw [fails, Bool.false_and]), List.map_nil]
  | _ => rfl

/-- A label begins with a colon. -/
lemma colon_of_label {part : Part} (part_mem : part ∈ piece.parts)
    (is_label : part.tokenClass = .label) : text[part.start]? = some ':' := by
  obtain ⟨rest, _, chars⟩ := exists_reads_of_mem_pieces mem
  obtain ⟨lexeme, cursor⟩ := piece
  cases lexeme with
  | word token =>
    obtain ⟨before, fragment, behind, same, rfl⟩ := exists_of_mem_partsFrom part_mem
    have inside : fragment ∈ fragments _ token := same ▸ List.mem_append_cons_self
    have well_formed := Fragment.wellFormed_of_mem_fragments inside
    dsimp only at is_label
    have head := well_formed.sigil ':' (by rw [is_label]; rfl)
    obtain ⟨c, run, text_eq⟩ := List.exists_cons_of_ne_nil well_formed.nonempty
    rw [text_eq] at head
    have at_start : token[(Fragment.textOf before).length]? = some ':' := by
      rw [token_split same, List.getElem?_append_right (Nat.le_refl _), Nat.sub_self, text_eq]
      exact head
    obtain ⟨bound, _⟩ := List.getElem?_eq_some_iff.1 at_start
    exact (chars _ bound).trans at_start
  | space c => cases part_mem
  | region kind body closed => cases part_mem
  | _ =>
    obtain rfl := List.mem_singleton.1 part_mem
    cases is_label

end

/-- Behind a gap there is no dot. -/
lemma afterDot_of_gap {before : List Lexeme} (gap : (Cursor.start.after before).lead = .gap) :
    (Cursor.start.after before).afterDot = false := by
  obtain ⟨earlier, token, blanks, leads, some_blanks⟩ := lead_eq_gap_iff.1 gap
  obtain ⟨front, c, rfl⟩ := (List.eq_nil_or_concat blanks).resolve_left some_blanks
  have blank := leads.blank c (by rw [List.concat_eq_append]; exact List.mem_append_cons_self)
  rw [leads.split, List.concat_eq_append, List.map_append, ← List.cons_append, ← List.append_assoc,
    Cursor.after_append]
  have no_dot : c ≠ '.' := by
    rintro rfl
    cases blank
  exact beq_false_of_ne fun same => no_dot (Option.some.inj same)

/-- A declaration follows the word `Function`. -/
lemma followsFunction_of_declaration {part : Part} (part_mem : part ∈ (Script.ofText text).highlight)
    (declares : part.tokenClass = .functionDeclaration) :
    (Script.ofText text).FollowsFunction part.start := by
  obtain ⟨piece, mem, inside⟩ := List.mem_flatMap.1 part_mem
  have named : (Script.ofText text).functionEntry part ∈ piece.declared := by
    rw [declared_eq mem]
    exact List.mem_map_of_mem (List.mem_filter.2 ⟨inside, beq_iff_eq.2 declares⟩)
  obtain ⟨token, fragment, rest, _, first, declares', same⟩ := Piece.exists_of_mem_declared named
  obtain ⟨before, behind, joint, place⟩ := exists_of_mem_placed mem
  have start : part.start = (written before).length := by
    rw [← Cursor.start_after_offset, ← place]
    exact congrArg OutlineEntry.position same
  rw [start, followsFunction_iff joint, ← place]
  by_contra no_gap
  have no_lead : piece.surroundings.afterFunction = false := beq_false_of_ne no_gap
  exact not_declares_of_plain no_lead token fragment (first ▸ List.mem_cons_self) declares'

/-- A name that follows the word `Function` is declared, unless it is a command. -/
lemma declaration_of_followsFunction {word : Word} (mem : word ∈ (Script.ofText text).scan.words)
    (follows : (Script.ofText text).FollowsFunction word.start)
    (named : word.text.takeWhile isUserChar ≠ [])
    (no_command : isCommandName (word.text.takeWhile isUserChar) = false) :
    ⟨word.start, word.start + (word.text.takeWhile isUserChar).length, .functionDeclaration, .name⟩
      ∈ (Script.ofText text).highlight := by
  obtain ⟨before, behind, joint, start, _, _⟩ := exists_joint_of_word mem
  rw [start, followsFunction_iff joint] at follows
  have place : Piece.surroundings ⟨.word word.text, Cursor.start.after before⟩ = ⟨true, false⟩ := by
    rw [Piece.surroundings, follows, afterDot_of_gap follows]
    rfl
  obtain ⟨rest, first⟩ := exists_fragments_of_name ⟨true, false⟩ named
  have declared : Fragment.classOfName ⟨true, false⟩ (word.text.takeWhile isUserChar)
      = .functionDeclaration := by
    rw [Fragment.classOfName, if_neg Bool.false_ne_true, if_neg (ne_true_of_eq_false no_command),
      if_pos rfl]
  refine List.mem_flatMap.2 ⟨_, mem_pieces_of_joint joint, ?_⟩
  rw [start, Piece.parts, Piece.fragments, Piece.start, Cursor.start_after_offset]
  dsimp only
  rw [place, first, declared]
  exact List.mem_cons_self

/-- The outline names the declarations and labels that are highlighted. -/
theorem outline_agrees_with_highlight (text : List Char) : (Script.ofText text).OutlineAgrees where
  functions := by
    rw [outline_ofText, Script.highlight, List.filter_flatMap, List.map_flatMap]
    exact List.flatMap_congr fun piece mem => declared_eq mem
  follows := fun _ => followsFunction_of_declaration
  declares := fun _ => declaration_of_followsFunction
  labels := by
    rw [outline_ofText, Script.highlight, List.filter_flatMap, List.map_flatMap]
    exact List.flatMap_congr fun piece mem => label_eq mem
  colons := by
    intro part part_mem is_label
    obtain ⟨piece, mem, inside⟩ := List.mem_flatMap.1 part_mem
    exact colon_of_label mem inside is_label

end

end KixScript

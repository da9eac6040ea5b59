import KixScript.Proofs.Atoms
import KixScript.Proofs.Cover
import KixScript.Proofs.Shift
import KixScript.Proofs.Spelling

/-!
# Keywords among the commands

Every block keyword is a command, and the word that spells it has no other head. So a word that is a
block keyword is highlighted as one command (`Piece.parts_of_spells`). A command that spells a block
keyword can also be a part of a longer word, as in `?Do`; then it is no keyword. Apart from this, the
two views agree (`keywordSpans_eq`).
-/

namespace KixScript

/-- A name by itself is one fragment. -/
lemma fragments_name {place : Surroundings} {token : List Char} (some_text : token ≠ [])
    (user : ∀ c ∈ token, isUserChar c = true) :
    fragments place token = [⟨token, Fragment.classOfName place token, .name⟩] := by
  obtain ⟨c, rest, rfl⟩ := List.exists_cons_of_ne_nil some_text
  obtain ⟨first, others⟩ := List.forall_mem_cons.1 user
  rw [fragments, Fragment.ofHead_of_isUserChar first, List.takeWhile_eq_self_iff.2 others,
    List.dropWhile_eq_nil_iff.2 others, fragments]
  rfl

/-- A keyword is a command, unless it names a member of an object. -/
lemma classOfName_keyword {place : Surroundings} {token : List Char} {keyword : Keyword}
    (spells : Keyword.ofText? token = some keyword) :
    Fragment.classOfName place token = if place.member then .unclassified else .command := by
  have command : isCommandName token = true := by
    rw [isCommandName, ← Keyword.ofText?_eq_some_iff.1 spells, String.ofList_toList]
    exact List.contains_iff_mem.2 keyword.mem_commandNames
  rw [Fragment.classOfName, if_pos command]

/-- The parts of a word that spells a keyword: itself. -/
lemma Piece.parts_of_spells {cursor : Cursor} {token : List Char} {keyword : Keyword}
    (spells : Keyword.ofText? token = some keyword) :
    Piece.parts ⟨.word token, cursor⟩ = [⟨cursor.offset, cursor.offset + token.length,
      if cursor.afterDot then .unclassified else .command, .name⟩] := by
  have some_text : token ≠ [] := by
    rintro rfl
    cases spells
  have single : Piece.fragments ⟨.word token, cursor⟩ = _ :=
    fragments_name some_text (isUserChar_of_ofText? spells)
  rw [Piece.parts, single, classOfName_keyword spells]
  rfl

namespace Script

/-- The spans of the commands that spell a keyword. -/
def commandSpans (script : Script) (keyword : Keyword) : Set Span :=
  {span | ∃ part ∈ script.highlight, part.tokenClass = .command ∧
    part.start = span.start ∧ part.stop = span.stop ∧
    keyword.word.toList = lower (script.slice span.start span.stop)}

/-- The spans of the atoms that are a keyword to the block structure. -/
def keywordSpans (script : Script) (keyword : Keyword) : Set Span :=
  {span | ∃ atom ∈ script.scan.atoms, atom.occurrence? = some ⟨keyword, span.start, span.stop⟩}

/-- The spans of the words. -/
def wordSpans (script : Script) : Set Span :=
  {span | ∃ word ∈ script.scan.words, word.start = span.start ∧ word.stop = span.stop}

end Script

/-- A word that spells a keyword, and is no member of an object, fills a span. -/
def Script.Spells (script : Script) (keyword : Keyword) (span : Span) : Prop :=
  ∃ token cursor, ⟨.word token, cursor⟩ ∈ script.scan.pieces ∧
    cursor.keyword? token = some keyword ∧
    span.start = cursor.offset ∧ span.stop = cursor.offset + token.length

section
variable {text : List Char} {keyword : Keyword} {span : Span}

/-- A word is a piece, and a keyword where its cursor allows it. -/
lemma exists_piece_of_word {word : Word} (mem : word ∈ (Script.ofText text).scan.words) :
    ∃ cursor, ⟨.word word.text, cursor⟩ ∈ (Script.ofText text).scan.pieces ∧
      word.keyword = cursor.keyword? word.text ∧
      word.start = cursor.offset ∧ word.stop = cursor.offset + word.text.length := by
  obtain ⟨⟨lexeme, cursor⟩, piece_mem, here⟩ := List.mem_filterMap.1 mem
  cases lexeme with
  | word token =>
    obtain rfl := Option.some.inj here
    exact ⟨cursor, piece_mem, rfl, rfl, rfl⟩
  | _ => cases here

/-- A keyword is listed where it is spelled. -/
lemma mem_keywordSpans :
    span ∈ (Script.ofText text).keywordSpans keyword ↔ (Script.ofText text).Spells keyword span := by
  constructor
  · rintro ⟨atom, mem, is_keyword⟩
    obtain ⟨start, stop⟩ := Atom.span_of_occurrence? is_keyword
    cases atom with
    | word word =>
      obtain ⟨cursor, mem, same, place⟩ := exists_piece_of_word (word_mem_atoms.1 mem)
      obtain ⟨_, found, here⟩ := Option.map_eq_some_iff.1 is_keyword
      obtain rfl := congrArg Occurrence.keyword here
      exact ⟨word.text, cursor, mem, same ▸ found, start.trans place.1, stop.trans place.2⟩
    | opening at_start partner => cases is_keyword
    | closing at_start partner => cases is_keyword
  · rintro ⟨token, cursor, mem, is_keyword, start, stop⟩
    refine ⟨_, word_mem_atoms.2 (List.mem_filterMap.2 ⟨_, mem, rfl⟩), ?_⟩
    rw [Atom.occurrence?, is_keyword, start, stop]
    rfl

/-- A command that fills a word and spells a keyword is the only part of the word. -/
lemma spells_of_command (command : span ∈ (Script.ofText text).commandSpans keyword)
    (whole : span ∈ (Script.ofText text).wordSpans) :
    (Script.ofText text).Spells keyword span := by
  obtain ⟨part, part_mem, command, start, stop, spelled⟩ := command
  obtain ⟨word, word_mem, word_start, word_stop⟩ := whole
  obtain ⟨cursor, mem, _, place, place'⟩ := exists_piece_of_word word_mem
  rw [word_start] at place
  rw [word_stop] at place'
  have slice : (Script.ofText text).slice span.start span.stop = word.text := by
    rw [place, place']
    exact slice_piece mem
  have spells : Keyword.ofText? word.text = some keyword := by
    rw [Keyword.ofText?_eq_some_iff, spelled, slice]
  have here : part ∈ Piece.parts ⟨.word word.text, cursor⟩ := by
    obtain ⟨piece, piece_mem, part_mem⟩ := List.mem_flatMap.1 part_mem
    obtain ⟨_, lower, some_text, upper⟩ := bounds_of_mem_parts piece_mem part_mem
    have covers : part.start ∈ Set.Ico piece.start piece.stop :=
      ⟨lower, Nat.lt_of_lt_of_le some_text upper⟩
    have covers' : part.start ∈ Set.Ico cursor.offset (cursor.offset + word.text.length) := by
      rw [← place', ← place, ← start, ← stop]
      exact ⟨Nat.le_refl _, some_text⟩
    rwa [piece_eq_of_covers piece_mem mem covers covers'] at part_mem
  -- The word has no other part, so it is the command, and no member of an object.
  rw [Piece.parts_of_spells spells] at here
  refine ⟨word.text, cursor, mem, ?_, place, place'⟩
  rw [Cursor.keyword?]
  cases member : cursor.afterDot with
  | false => exact spells
  | true =>
    rw [List.mem_singleton.1 here, member] at command
    cases command

/-- A command that is a word is listed where it is spelled. -/
lemma mem_commandSpans :
    span ∈ (Script.ofText text).commandSpans keyword ∩ (Script.ofText text).wordSpans
      ↔ (Script.ofText text).Spells keyword span := by
  constructor
  · rintro ⟨command, whole⟩
    exact spells_of_command command whole
  · rintro ⟨token, cursor, mem, is_keyword, start, stop⟩
    rw [Cursor.keyword?, Option.ite_none_left_eq_some] at is_keyword
    obtain ⟨no_member, spells⟩ := is_keyword
    have parts : Piece.parts ⟨.word token, cursor⟩ = _ := Piece.parts_of_spells spells
    rw [if_neg no_member] at parts
    refine ⟨⟨_, List.mem_flatMap.2 ⟨_, mem, parts ▸ List.mem_singleton_self _⟩, rfl, ?_⟩, ?_⟩
    · refine ⟨start.symm, stop.symm, ?_⟩
      rw [Keyword.ofText?_eq_some_iff.1 spells, start, stop]
      exact congrArg lower (slice_piece mem).symm
    · exact ⟨_, List.mem_filterMap.2 ⟨_, mem, rfl⟩, start.symm, stop.symm⟩

end

/-- The spans of block keywords are those of the commands that spell them and are whole words. -/
theorem keywordSpans_eq (text : List Char) (keyword : Keyword) :
    (Script.ofText text).keywordSpans keyword
      = (Script.ofText text).commandSpans keyword ∩ (Script.ofText text).wordSpans := by
  ext span
  rw [mem_keywordSpans, mem_commandSpans]

/-- A loop whose head is glued to a print command. -/
def gluedLoop : List Char :=
  "?Do".toList

/-- The `Do` is a command and spells a keyword, but it is none. -/
theorem gluedLoop_disagrees :
    ¬ ∀ span, (∃ keyword, span ∈ (Script.ofText gluedLoop).commandSpans keyword)
      ↔ ∃ keyword, span ∈ (Script.ofText gluedLoop).keywordSpans keyword := by
  intro agree
  have command : (⟨1, 3⟩ : Span) ∈ (Script.ofText gluedLoop).commandSpans (.opener .doUntil) := by
    refine ⟨⟨1, 3, .command, .name⟩, ?_, rfl, rfl, rfl, ?_⟩
    · decide +kernel
    · decide
  obtain ⟨keyword, atom, mem, is_keyword⟩ := (agree ⟨1, 3⟩).1 ⟨_, command⟩
  have only : (Script.ofText gluedLoop).scan.atoms
      = [.word ⟨0, 3, gluedLoop, 0, false, none⟩] := by
    decide +kernel
  rw [only] at mem
  rw [List.mem_singleton.1 mem] at is_keyword
  cases is_keyword

end KixScript

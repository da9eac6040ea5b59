import KixScript.Proofs.Sight
import Mathlib.Data.List.Basic

/-!
# Atoms in order

Without their partners, the atoms are the words and parentheses among the pieces of a text
(`map_alone_atoms`). They stand in order and do not overlap (`pairwise_atoms`). So the atoms before an
atom are those that start before it (`atomsBefore_atom`), and an offset inside of an atom is on no other
one (`keywordAt_atom`). A walk back that has come to a keyword goes on as one that begins there
(`keywordsBack_resume`).
-/

namespace KixScript

namespace Atom

/-- An atom without its partner. -/
def alone : Atom → Atom
  | .word w => .word w
  | .opening start _ => .opening start none
  | .closing start _ => .closing start none

/-- The word that an atom is. -/
def word? : Atom → Option Word
  | .word w => some w
  | _ => none

/-- Without its partner, an atom is what it was before it got one. -/
lemma alone_pairedBy (pairs : List (Nat × Nat)) (index : Nat) (atom : Atom) :
    (atom.pairedBy pairs index).alone = atom.alone := by
  cases atom <;> rfl

/-- Words have no partner to lose. -/
lemma word?_alone (atom : Atom) : atom.alone.word? = atom.word? := by
  cases atom <;> rfl

/-- An atom starts where it does with a partner. -/
lemma start_alone (atom : Atom) : atom.alone.start = atom.start := by
  cases atom <;> rfl

/-- An atom stops where it does with a partner. -/
lemma stop_alone (atom : Atom) : atom.alone.stop = atom.stop := by
  cases atom <;> rfl

/-- An atom has a word if it is one. -/
lemma word?_eq_some {atom : Atom} {word : Word} : atom.word? = some word ↔ atom = .word word := by
  cases atom <;> simp [word?]

/-- An atom with its word changed, or at another place. It keeps its partner. -/
def changed (word : Word → Word) (place : Nat → Nat) : Atom → Atom
  | .word w => .word (word w)
  | .opening start partner => .opening (place start) partner
  | .closing start partner => .closing (place start) partner

/-- Changing an atom and giving it a partner can be done in either order. -/
lemma pairedBy_changed (word : Word → Word) (place : Nat → Nat) (pairs : List (Nat × Nat))
    (index : Nat) (atom : Atom) :
    (atom.changed word place).pairedBy pairs index = (atom.pairedBy pairs index).changed word place := by
  cases atom <;> rfl

end Atom

section
variable (word : Word → Word) (place : Nat → Nat)

/-- Changed atoms are paired as before. -/
lemma parenPairs_changed (index : Nat) (waiting : List Nat) (atoms : List Atom) :
    parenPairs index waiting (atoms.map (Atom.changed word place)) = parenPairs index waiting atoms := by
  induction atoms generalizing index waiting with
  | nil => rfl
  | cons atom rest ih =>
    cases atom with
    | word w => exact ih _ _
    | opening start partner => exact ih _ _
    | closing start partner =>
      cases waiting with
      | nil => exact ih _ _
      | cons nearest outer => exact congrArg (List.cons _) (ih _ _)

/-- Parentheses keep their partners. -/
lemma pairAtoms_changed (atoms : List Atom) :
    pairAtoms (atoms.map (Atom.changed word place))
      = (pairAtoms atoms).map (Atom.changed word place) := by
  apply List.ext_getElem
  · simp [pairAtoms]
  · intro index bound bound'
    simp only [pairAtoms, List.getElem_map, List.getElem_mapIdx, parenPairs_changed]
    exact Atom.pairedBy_changed word place _ _ _

/-- Changed atoms are in the same groups as before. -/
lemma outsideGroups_changed (count skip : Nat) (atoms : List Atom) :
    outsideGroups count skip (atoms.map (Atom.changed word place))
      = (outsideGroups count skip atoms).map (Atom.changed word place) := by
  induction atoms generalizing count skip with
  | nil => rfl
  | cons atom earlier ih =>
    rw [List.map_cons]
    cases skip with
    | succ skip => exact ih _ _
    | zero =>
      cases atom with
      | word w => exact congrArg (List.cons _) (ih _ _)
      | opening start partner => exact congrArg (List.cons _) (ih _ _)
      | closing start partner =>
        cases partner with
        | none => exact congrArg (List.cons _) (ih _ _)
        | some partner => exact ih _ _

/-- A walk back meets the changed keywords. -/
lemma keywordsBack_changed {carry : Occurrence → Occurrence}
    (carries : ∀ atom : Atom, (atom.changed word place).occurrence? = atom.occurrence?.map carry)
    (atoms : List Atom) :
    keywordsBack (atoms.map (Atom.changed word place)) = (keywordsBack atoms).map carry := by
  rw [keywordsBack, keywordsBack, List.length_map, ← List.map_reverse, outsideGroups_changed,
    List.filterMap_map, List.map_filterMap]
  exact List.filterMap_congr fun atom _ => carries atom

end

/-- The atom of a piece has no partner yet. -/
lemma Piece.alone_of_atom? {piece : Piece} {atom : Atom} (found : piece.atom? = some atom) :
    atom.alone = atom := by
  obtain ⟨lexeme, cursor⟩ := piece
  cases lexeme with
  | word token =>
    obtain rfl := Option.some.inj found
    rfl
  | opening =>
    obtain rfl := Option.some.inj found
    rfl
  | closing =>
    obtain rfl := Option.some.inj found
    rfl
  | space c => cases found
  | punctuation run => cases found
  | region kind body closed => cases found

/-- The word of a piece is that of its atom. -/
lemma Piece.bind_atom? (piece : Piece) : piece.atom?.bind Atom.word? = piece.word? := by
  obtain ⟨lexeme, cursor⟩ := piece
  cases lexeme <;> rfl

/-- A piece is an atom with a word if it is the word. -/
lemma Piece.atom?_eq_word {piece : Piece} {word : Word} :
    piece.atom? = some (.word word) ↔ piece.word? = some word := by
  obtain ⟨lexeme, cursor⟩ := piece
  cases lexeme with
  | word text => exact ⟨fun same => congrArg some (Atom.word.inj (Option.some.inj same)),
      fun same => congrArg (Option.map Atom.word) same⟩
  | opening => exact ⟨nofun, nofun⟩
  | closing => exact ⟨nofun, nofun⟩
  | space c => exact ⟨nofun, nofun⟩
  | punctuation run => exact ⟨nofun, nofun⟩
  | region kind body closed => exact ⟨nofun, nofun⟩

/-- A word has the text, the place, the depth and the dot of its piece. -/
lemma Piece.word?_eq_some {piece : Piece} {word : Word} (found : piece.word? = some word) :
    piece.lexeme = .word word.text ∧ word.start = piece.start ∧ word.stop = piece.stop ∧
      word.depth = piece.cursor.depth ∧ word.member = piece.cursor.afterDot := by
  obtain ⟨lexeme, cursor⟩ := piece
  cases lexeme with
  | word token =>
    obtain rfl := Option.some.inj found
    exact ⟨rfl, rfl, rfl, rfl, rfl⟩
  | _ => cases found

/-- A piece opens a group if its lexeme does. -/
lemma Piece.atom?_eq_opening {piece : Piece} {start : Nat} :
    piece.atom? = some (.opening start none) ↔ piece.lexeme = .opening ∧ piece.start = start := by
  obtain ⟨lexeme, cursor⟩ := piece
  cases lexeme <;> simp [atom?, word?]

/-- A piece closes a group if its lexeme does. -/
lemma Piece.atom?_eq_closing {piece : Piece} {start : Nat} :
    piece.atom? = some (.closing start none) ↔ piece.lexeme = .closing ∧ piece.start = start := by
  obtain ⟨lexeme, cursor⟩ := piece
  cases lexeme <;> simp [atom?, word?]

/-- A keyword stands where its atom does. -/
lemma Atom.span_of_occurrence? {atom : Atom} {found : Occurrence}
    (is_keyword : atom.occurrence? = some found) :
    found.start = atom.start ∧ found.stop = atom.stop := by
  cases atom with
  | word word =>
    obtain ⟨_, _, rfl⟩ := Option.map_eq_some_iff.1 is_keyword
    exact ⟨rfl, rfl⟩
  | _ => cases is_keyword

section
variable {text : List Char} {atom : Atom} {before behind : List Atom}

/-- Without their partners, the atoms are what the pieces are seen as. -/
lemma map_alone_atoms (text : List Char) :
    (Script.ofText text).scan.atoms.map Atom.alone
      = (Script.ofText text).scan.pieces.filterMap Piece.atom? := by
  rw [atoms_ofText, pairAtoms]
  apply List.ext_getElem
  · rw [List.length_map, List.length_mapIdx]
    rfl
  · intro index bound bound'
    obtain ⟨piece, _, found⟩ := List.mem_filterMap.1 (List.getElem_mem bound')
    rw [List.getElem_map, List.getElem_mapIdx, Atom.alone_pairedBy]
    exact Piece.alone_of_atom? found

/-- Without their partners, the atoms are those of the pieces. -/
lemma exists_alone_iff {loose : Atom} :
    (∃ atom ∈ (Script.ofText text).scan.atoms, atom.alone = loose)
      ↔ ∃ piece ∈ (Script.ofText text).scan.pieces, piece.atom? = some loose := by
  rw [← List.mem_filterMap, ← map_alone_atoms, List.mem_map]

/-- Every atom is a piece of the text. -/
lemma exists_piece_of_atom (mem : atom ∈ (Script.ofText text).scan.atoms) :
    ∃ piece ∈ (Script.ofText text).scan.pieces, atom.start = piece.start ∧ atom.stop = piece.stop := by
  obtain ⟨piece, mem, found⟩ := exists_alone_iff.1 ⟨atom, mem, rfl⟩
  rw [← atom.start_alone, ← atom.stop_alone]
  exact ⟨piece, mem, Piece.span_of_atom? found⟩

/-- The words of a text are the atoms that are words. -/
lemma filterMap_word?_atoms (text : List Char) :
    (Script.ofText text).scan.atoms.filterMap Atom.word? = (Script.ofText text).scan.words := by
  calc (Script.ofText text).scan.atoms.filterMap Atom.word?
      = ((Script.ofText text).scan.atoms.map Atom.alone).filterMap Atom.word? := by
        rw [List.filterMap_map]
        exact List.filterMap_congr fun atom _ => (Atom.word?_alone atom).symm
    _ = (Script.ofText text).scan.pieces.filterMap fun piece => piece.atom?.bind Atom.word? := by
        rw [map_alone_atoms, List.filterMap_filterMap]
    _ = (Script.ofText text).scan.words :=
        List.filterMap_congr fun piece _ => piece.bind_atom?

/-- A word is one of the atoms if it is one of the words. -/
lemma word_mem_atoms {word : Word} :
    .word word ∈ (Script.ofText text).scan.atoms ↔ word ∈ (Script.ofText text).scan.words := by
  simp only [← filterMap_word?_atoms, List.mem_filterMap, Atom.word?_eq_some, exists_eq_right]

/-- A word is the keyword that it spells, unless it is a member of an object. -/
lemma keyword_eq_of_mem_words {word : Word} (mem : word ∈ (Script.ofText text).scan.words) :
    word.keyword = if word.member then none else Keyword.ofText? word.text := by
  obtain ⟨⟨lexeme, cursor⟩, _, here⟩ := List.mem_filterMap.1 mem
  cases lexeme with
  | word spelling =>
    obtain rfl := Option.some.inj here
    rfl
  | _ => cases here

/-- A word that is no member is the keyword that it spells. -/
lemma keyword_of_mem_words {word : Word} (mem : word ∈ (Script.ofText text).scan.words)
    (noMember : word.member = false) : word.keyword = Keyword.ofText? word.text := by
  rw [keyword_eq_of_mem_words mem]
  exact if_neg (ne_true_of_eq_false noMember)

/-- No atom is empty. -/
lemma start_lt_stop_of_mem (mem : atom ∈ (Script.ofText text).scan.atoms) : atom.start < atom.stop := by
  obtain ⟨piece, mem, start, stop⟩ := exists_piece_of_atom mem
  rw [start, stop]
  exact (lexemes_stream text).start_lt_stop mem

/-- Atoms stand in order and do not overlap. -/
lemma pairwise_atoms (text : List Char) :
    (Script.ofText text).scan.atoms.Pairwise fun atom atom' => atom.stop ≤ atom'.start := by
  have loose : ((Script.ofText text).scan.atoms.map Atom.alone).Pairwise fun atom atom' =>
      atom.stop ≤ atom'.start := by
    rw [map_alone_atoms]
    apply List.Pairwise.filterMap _ _ (pairwise_placed .start (lexemes text))
    intro piece piece' order atom here atom' here'
    rw [(Piece.span_of_atom? here).2, (Piece.span_of_atom? here').1]
    exact order
  rw [List.pairwise_map] at loose
  exact loose.imp fun order => by rwa [Atom.stop_alone, Atom.start_alone] at order

/-- What an atom divides the others into: those that start before it, and those behind its end. -/
lemma starts_around (split : (Script.ofText text).scan.atoms = before ++ atom :: behind) :
    (∀ other ∈ before, other.start < atom.start) ∧ atom.start < atom.stop ∧
      ∀ other ∈ behind, atom.stop ≤ other.start := by
  have nonempty : ∀ other ∈ before ++ atom :: behind, other.start < other.stop := by
    rw [← split]
    exact fun _ => start_lt_stop_of_mem
  have order := pairwise_atoms text
  rw [split, List.pairwise_append, List.pairwise_cons] at order
  obtain ⟨_, ⟨later, _⟩, earlier⟩ := order
  refine ⟨?_, nonempty atom (List.mem_append_right _ List.mem_cons_self), later⟩
  intro other mem
  exact Nat.lt_of_lt_of_le (nonempty other (List.mem_append_left _ mem))
    (earlier other mem atom List.mem_cons_self)

/-- The atoms before an atom are those that start before it. -/
lemma atomsBefore_atom (split : (Script.ofText text).scan.atoms = before ++ atom :: behind) :
    (Script.ofText text).atomsBefore atom.start = before := by
  obtain ⟨earlier, some_text, later⟩ := starts_around split
  rw [Script.atomsBefore, split, List.filter_append, List.filter_eq_self.2, List.filter_eq_nil_iff.2,
    List.append_nil]
  · intro other mem
    rw [decide_eq_true_eq, Int.ofNat_lt]
    rcases List.mem_cons.1 mem with rfl | mem
    · exact Nat.lt_irrefl _
    · have start := later other mem
      omega
  · intro other mem
    exact decide_eq_true (Int.ofNat_lt.2 (earlier other mem))

/-- The keyword at an offset inside of an atom is that of the atom. -/
lemma keywordAt_atom {offset : Int}
    (split : (Script.ofText text).scan.atoms = before ++ atom :: behind) (lower : atom.start ≤ offset)
    (upper : offset < atom.stop) : (Script.ofText text).keywordAt offset = atom.occurrence? := by
  obtain ⟨earlier, _, later⟩ := starts_around split
  have here : (Script.ofText text).atomsBefore (offset + 1) = before ++ [atom] := by
    have parts : before ++ atom :: behind = (before ++ [atom]) ++ behind := by simp
    rw [Script.atomsBefore, split, parts, List.filter_append, List.filter_eq_self.2,
      List.filter_eq_nil_iff.2, List.append_nil]
    · intro other mem
      have start := later other mem
      rw [decide_eq_true_eq]
      omega
    · intro other mem
      rw [decide_eq_true_eq]
      rcases List.mem_append.1 mem with mem | mem
      · have start := earlier other mem
        omega
      · rw [List.mem_singleton.1 mem]
        omega
  rw [Script.keywordAt, here, List.getLast?_concat]
  exact if_neg (Int.not_le.2 upper)

/-- A keyword that is found at an offset is an atom that covers it. -/
lemma exists_atom_of_keywordAt {offset : Int} {found : Occurrence}
    (here : (Script.ofText text).keywordAt offset = some found) :
    ∃ atom ∈ (Script.ofText text).scan.atoms, atom.occurrence? = some found ∧
      atom.start ≤ offset ∧ offset < atom.stop := by
  rw [Script.keywordAt] at here
  split at here
  · rename_i atom last
    obtain ⟨mem, starts⟩ := List.mem_filter.1 (List.mem_of_getLast? last)
    rw [decide_eq_true_eq, Int.lt_add_one_iff] at starts
    split at here
    · cases here
    · rename_i within
      exact ⟨atom, mem, here, starts, Int.not_le.1 within⟩
  · cases here

/-- From a keyword that closes something, the search for its opener walks back over the atoms before
it. -/
lemma matchingOpener_atom {offset : Int} {found : Occurrence}
    (split : (Script.ofText text).scan.atoms = before ++ atom :: behind)
    (is_keyword : atom.occurrence? = some found) (closes : found.keyword.closes = true)
    (lower : atom.start ≤ offset) (upper : offset < atom.stop) :
    (Script.ofText text).matchingOpener offset
      = findOpener true [found.keyword] (keywordsBack before) := by
  rw [Script.matchingOpener, keywordAt_atom split lower upper, is_keyword]
  dsimp only
  rw [if_pos closes, (Atom.span_of_occurrence? is_keyword).1, atomsBefore_atom split]

end

/-- A walk back that has come to an atom goes on as one that begins there. -/
lemma outsideGroups_resume {atoms front back : List Atom} {skip : Nat} {atom : Atom}
    (met : outsideGroups atoms.length skip atoms = front ++ atom :: back) :
    ∃ later earlier, atoms = later ++ atom :: earlier ∧
      outsideGroups earlier.length 0 earlier = back := by
  induction atoms generalizing skip front with
  | nil => simp [outsideGroups] at met
  | cons first rest ih =>
    have passed : ∀ skip front, outsideGroups rest.length skip rest = front ++ atom :: back →
        ∃ later earlier, first :: rest = later ++ atom :: earlier ∧
          outsideGroups earlier.length 0 earlier = back := by
      intro skip front met
      obtain ⟨later, earlier, rfl, goes_on⟩ := ih met
      exact ⟨first :: later, earlier, rfl, goes_on⟩
    cases skip with
    | succ skip => exact passed skip front met
    | zero =>
      by_cases passes : ∃ start partner, first = .closing start (some partner)
      · obtain ⟨start, partner, rfl⟩ := passes
        exact passed _ front met
      · rw [List.length_cons, outsideGroups_cons fun start partner same =>
          passes ⟨start, partner, same⟩] at met
        cases front with
        | nil =>
          obtain ⟨rfl, goes_on⟩ := List.cons.inj met
          exact ⟨[], rest, rfl, goes_on⟩
        | cons other front => exact passed 0 front (List.cons.inj met).2

/-- From a keyword that was met, the way back goes on as if it began there. -/
lemma keywordsBack_resume {atoms : List Atom} {later earlier : List Occurrence} {found : Occurrence}
    (met : keywordsBack atoms = later ++ found :: earlier) :
    ∃ before atom behind, atoms = before ++ atom :: behind ∧ atom.occurrence? = some found ∧
      keywordsBack before = earlier := by
  obtain ⟨front, back, walk, _, seen⟩ := List.filterMap_eq_append_iff.1 met
  obtain ⟨between, atom, rest, rfl, _, is_keyword, seen⟩ := List.filterMap_eq_cons_iff.1 seen
  rw [← List.append_assoc, ← List.length_reverse] at walk
  obtain ⟨behind, before, split, goes_on⟩ := outsideGroups_resume walk
  refine ⟨before.reverse, atom, behind.reverse, ?_, is_keyword, ?_⟩
  · rw [← List.reverse_reverse atoms, split]
    simp
  · rw [keywordsBack, List.reverse_reverse, List.length_reverse, goes_on, seen]

/-- What is met on the way back from an atom ends before it. -/
lemma stop_le_of_mem_keywordsBack {text : List Char} {atom : Atom} {before behind : List Atom}
    (split : (Script.ofText text).scan.atoms = before ++ atom :: behind) {found : Occurrence}
    (mem : found ∈ keywordsBack before) : found.stop ≤ atom.start := by
  obtain ⟨later, earlier, met⟩ := List.append_of_mem mem
  obtain ⟨front, other, back, rfl, is_keyword, _⟩ := keywordsBack_resume met
  have order := pairwise_atoms text
  rw [split, List.pairwise_append] at order
  rw [(Atom.span_of_occurrence? is_keyword).2]
  exact order.2.2 other (List.mem_append_right _ List.mem_cons_self) atom List.mem_cons_self

end KixScript

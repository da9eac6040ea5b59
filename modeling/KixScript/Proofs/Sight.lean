import KixScript.Block
import KixScript.Proofs.Parentheses

/-!
# Keywords in sight

Walking back from a place passes over the groups that are closed before it and steps out of those
that are not. What the walk meets can be gathered on the way forward as well: for each group that is
still open, and for what stands outside of all groups, the keywords met in it so far. A closing
parenthesis drops what its group holds. `keywordsBack_joint` says that both come to the same.
-/

namespace KixScript

/-- What is in sight behind an atom. The groups are listed from the innermost outwards and end with
what stands outside of all groups; in each the nearest keyword comes first. -/
def look : List (List Occurrence) → Atom → List (List Occurrence)
  | group :: outer, .word w => ((Atom.word w).occurrence?.toList ++ group) :: outer
  | groups, .opening _ _ => [] :: groups
  | _ :: outer :: more, .closing _ _ => outer :: more
  | groups, _ => groups

/-- What is in sight behind some atoms, with nothing before them. -/
def sightBehind (atoms : List Atom) : List (List Occurrence) :=
  atoms.foldl look [[]]

/-- One atom more is looked at last. -/
lemma sightBehind_concat (before : List Atom) (atom : Atom) :
    sightBehind (before ++ [atom]) = look (sightBehind before) atom := by
  simp [sightBehind]

/-- The groups in sight are the parentheses that wait, and around each group is what was in sight
where its parenthesis stands. -/
structure Nested (atoms : List Atom) : Prop where
  length : (sightBehind atoms).length = (stillWaiting 0 [] atoms).length + 1
  outer : ∀ {nearest rest}, stillWaiting 0 [] atoms = nearest :: rest →
    nearest < atoms.length ∧ stillWaiting 0 [] (atoms.take nearest) = rest ∧
      (sightBehind atoms).tail = sightBehind (atoms.take nearest)

/-- A closing parenthesis drops the group of its partner. -/
lemma Nested.look_closing {atoms : List Atom} (nested : Nested atoms) {nearest : Nat}
    {rest : List Nat} (waiting : stillWaiting 0 [] atoms = nearest :: rest) (start : Nat)
    (partner : Option Nat) :
    look (sightBehind atoms) (.closing start partner) = (sightBehind atoms).tail := by
  have length := nested.length
  rw [waiting] at length
  obtain ⟨group, groups, sight⟩ := List.exists_cons_of_length_eq_add_one length
  rw [sight] at length ⊢
  obtain ⟨next, more, rfl⟩ := List.exists_cons_of_length_eq_add_one (Nat.succ.inj length)
  rfl

/-- Sight and waiting parentheses go together. A closing parenthesis brings both back to where its
partner stands, so the induction is on the number of atoms. -/
lemma nested (atoms : List Atom) : Nested atoms := by
  rcases List.eq_nil_or_concat atoms with rfl | ⟨before, atom, same⟩
  · exact ⟨rfl, nofun⟩
  rw [List.concat_eq_append] at same
  have shorter : before.length < atoms.length := by simp [same]
  have ih := nested before
  obtain ⟨group, groups, sight⟩ : ∃ group groups, sightBehind before = group :: groups :=
    List.exists_cons_of_length_eq_add_one ih.length
  have take : ∀ {count}, count < before.length → atoms.take count = before.take count := by
    intro count bound
    rw [same, List.take_append_of_le_length (Nat.le_of_lt bound)]
  cases atom with
  | word w =>
    have waiting : stillWaiting 0 [] atoms = stillWaiting 0 [] before := by
      rw [same, stillWaiting_concat]
      rfl
    have seen : (sightBehind atoms).tail = (sightBehind before).tail := by
      rw [same, sightBehind_concat, sight]
      rfl
    refine ⟨?_, ?_⟩
    · rw [waiting, ← ih.length, same, sightBehind_concat, sight]
      rfl
    · intro nearest rest first
      obtain ⟨bound, outer, inner⟩ := ih.outer (waiting.symm.trans first)
      rw [take bound, seen]
      exact ⟨Nat.lt_trans bound shorter, outer, inner⟩
  | opening start partner =>
    have waiting : stillWaiting 0 [] atoms = before.length :: stillWaiting 0 [] before := by
      rw [same, stillWaiting_concat]
      rfl
    have seen : sightBehind atoms = [] :: sightBehind before := by
      rw [same, sightBehind_concat, sight]
      rfl
    refine ⟨?_, ?_⟩
    · rw [waiting, seen, List.length_cons, List.length_cons, ih.length]
    · intro nearest rest first
      obtain ⟨rfl, rfl⟩ := List.cons.inj (waiting.symm.trans first)
      rw [seen, List.tail_cons, same, List.take_left]
      exact ⟨by simp, rfl, rfl⟩
  | closing start partner =>
    have waiting : stillWaiting 0 [] atoms = (stillWaiting 0 [] before).tail := by
      rw [same, stillWaiting_concat]
      rfl
    cases open_before : stillWaiting 0 [] before with
    | nil =>
      obtain rfl : groups = [] := by
        have length := ih.length
        rw [sight, open_before] at length
        simpa using length
      rw [open_before, List.tail_nil] at waiting
      refine ⟨?_, ?_⟩
      · rw [waiting, same, sightBehind_concat, sight]
        rfl
      · intro nearest rest first
        rw [waiting] at first
        cases first
    | cons nearest rest =>
      obtain ⟨bound, outer, inner⟩ := ih.outer open_before
      -- All is as it was where the partner stands.
      have seen : sightBehind atoms = sightBehind (before.take nearest) := by
        rw [same, sightBehind_concat, ih.look_closing open_before, inner]
      rw [open_before, List.tail_cons, ← outer] at waiting
      have ih' := nested (before.take nearest)
      refine ⟨?_, ?_⟩
      · rw [seen, waiting, ih'.length]
      · intro nearest' rest' first
        obtain ⟨bound', outer', inner'⟩ := ih'.outer (waiting.symm.trans first)
        rw [List.length_take] at bound'
        rw [List.take_take, Nat.min_eq_left (by omega)] at outer' inner'
        rw [take (by omega), seen]
        exact ⟨by omega, outer', inner'⟩
termination_by atoms.length
decreasing_by
  · exact shorter
  · rw [List.length_take]
    omega

/-- Atoms to be skipped are dropped. -/
lemma outsideGroups_skip (count skip : Nat) (atoms : List Atom) :
    outsideGroups count skip atoms = outsideGroups (count - skip) 0 (atoms.drop skip) := by
  induction atoms generalizing count skip with
  | nil => simp [outsideGroups]
  | cons atom earlier ih =>
    cases skip with
    | zero => rfl
    | succ skip =>
      rw [outsideGroups, ih, List.drop_succ_cons, Nat.sub_sub, Nat.add_comm 1 skip]

/-- An atom that ends no closed group is met. -/
lemma outsideGroups_cons {atom : Atom} (meets : ∀ start partner, atom ≠ .closing start (some partner))
    (count : Nat) (earlier : List Atom) :
    outsideGroups (count + 1) 0 (atom :: earlier) = atom :: outsideGroups count 0 earlier := by
  rw [outsideGroups, Nat.add_sub_cancel]
  exact meets

/-- Pairing keeps the number of atoms. -/
@[simp] lemma length_pairAtoms (atoms : List Atom) : (pairAtoms atoms).length = atoms.length := by
  simp [pairAtoms]

/-- One paired atom more is taken. -/
lemma take_pairAtoms (before : List Atom) (atom : Atom) (behind : List Atom) :
    (pairAtoms (before ++ atom :: behind)).take (before.length + 1)
      = (pairAtoms (before ++ atom :: behind)).take before.length
        ++ [atom.pairedBy (parenPairs 0 [] (before ++ atom :: behind)) before.length] := by
  rw [List.take_add_one]
  simp [pairAtoms]

/-- Walking back over paired atoms meets what is in sight. A group that is passed over leads back to
where it opens, so the induction is on the number of atoms. -/
lemma keywordsBack_pairAtoms (before behind : List Atom) :
    keywordsBack ((pairAtoms (before ++ behind)).take before.length)
      = (sightBehind before).flatten := by
  rcases List.eq_nil_or_concat before with rfl | ⟨earlier, atom, same⟩
  · rfl
  rw [List.concat_eq_append] at same
  have shorter : earlier.length < before.length := by simp [same]
  have ih := keywordsBack_pairAtoms earlier (atom :: behind)
  obtain ⟨group, groups, sight⟩ : ∃ group groups, sightBehind earlier = group :: groups :=
    List.exists_cons_of_length_eq_add_one (nested earlier).length
  have length : ((pairAtoms (earlier ++ atom :: behind)).take earlier.length).length
      = earlier.length := by simp
  rw [same, sightBehind_concat, List.append_assoc, List.singleton_append, List.length_append,
    List.length_singleton, take_pairAtoms, keywordsBack, List.reverse_concat, List.length_append,
    List.length_singleton, length]
  rw [keywordsBack, length] at ih
  cases atom with
  | word w =>
    rw [Atom.pairedBy, outsideGroups_cons, List.filterMap_cons, ih, sight, look]
    · cases (Atom.word w).occurrence? <;> simp
    · exact nofun
  | opening start partner =>
    rw [Atom.pairedBy, outsideGroups_cons, List.filterMap_cons_none rfl, ih, look]
    · rfl
    · exact nofun
  | closing start partner =>
    rw [Atom.pairedBy, partner_of_closing]
    cases waiting : stillWaiting 0 [] earlier with
    | nil =>
      obtain rfl : groups = [] := by
        have length := (nested earlier).length
        rw [sight, waiting] at length
        simpa using length
      rw [List.head?_nil, outsideGroups_cons, List.filterMap_cons_none rfl, ih, sight]
      · rfl
      · exact nofun
    | cons nearest rest =>
      -- The walk goes on before the partner, where the group around it is in sight.
      obtain ⟨bound, _, inner⟩ := (nested earlier).outer waiting
      have ih' := keywordsBack_pairAtoms (earlier.take nearest)
        (earlier.drop nearest ++ .closing start partner :: behind)
      have length' : (earlier.take nearest).length = nearest := by
        rw [List.length_take]
        omega
      rw [← List.append_assoc, List.take_append_drop, length', keywordsBack, List.length_take,
        length_pairAtoms, Nat.min_eq_left (by simp; omega)] at ih'
      rw [List.head?_cons, outsideGroups, Nat.add_sub_cancel, outsideGroups_skip,
        Nat.sub_sub_self (Nat.le_of_lt bound), List.drop_reverse, length,
        Nat.sub_sub_self (Nat.le_of_lt bound), List.take_take, Nat.min_eq_left (Nat.le_of_lt bound),
        ih', (nested earlier).look_closing waiting, inner]
termination_by before.length
decreasing_by
  · exact shorter
  · rw [List.length_take]
    omega

/-- Pieces are split where their lexemes are. -/
lemma exists_of_placed_eq {cursor : Cursor} {lexemes : List Lexeme} {earlier later : List Piece}
    {piece : Piece} (same : placed cursor lexemes = earlier ++ piece :: later) :
    ∃ before behind, lexemes = before ++ piece.lexeme :: behind ∧
      piece.cursor = cursor.after before ∧ placed cursor before = earlier := by
  induction earlier generalizing cursor lexemes with
  | nil =>
    cases lexemes with
    | nil => cases same
    | cons lexeme rest =>
      obtain ⟨rfl, _⟩ := List.cons.inj same
      exact ⟨[], rest, rfl, rfl, rfl⟩
  | cons first earlier ih =>
    cases lexemes with
    | nil => cases same
    | cons lexeme rest =>
      obtain ⟨rfl, rest_same⟩ := List.cons.inj same
      obtain ⟨before, behind, rfl, place, rfl⟩ := ih rest_same
      exact ⟨lexeme :: before, behind, rfl, place, rfl⟩

/-- An atom starts where it did, whatever its partner. -/
@[simp] lemma Atom.start_pairedBy (pairs : List (Nat × Nat)) (index : Nat) (atom : Atom) :
    (atom.pairedBy pairs index).start = atom.start := by
  cases atom <;> rfl

/-- An atom stops where it did, whatever its partner. -/
@[simp] lemma Atom.stop_pairedBy (pairs : List (Nat × Nat)) (index : Nat) (atom : Atom) :
    (atom.pairedBy pairs index).stop = atom.stop := by
  cases atom <;> rfl

/-- An atom is the keyword that it was, whatever its partner. -/
@[simp] lemma Atom.occurrence?_pairedBy (pairs : List (Nat × Nat)) (index : Nat) (atom : Atom) :
    (atom.pairedBy pairs index).occurrence? = atom.occurrence? := by
  cases atom <;> rfl

section
variable {text : List Char} {before behind : List Lexeme} {place : Int}

/-- Where lexemes split, the atoms before are those of the first ones. -/
lemma atomsBefore_split (joint : lexemes text = before ++ behind)
    (starts_before : ∀ piece ∈ placed .start before, (piece.start : Int) < place)
    (starts_behind : ∀ piece ∈ placed (Cursor.start.after before) behind, place ≤ piece.start) :
    (Script.ofText text).atomsBefore place
      = (pairAtoms (looseAtoms .start (lexemes text))).take (looseAtoms .start before).length := by
  rw [Script.atomsBefore, atoms_ofText, joint, looseAtoms_append, pairAtoms, List.mapIdx_append,
    List.filter_append, List.take_left' (by simp)]
  have kept : ∀ atom ∈ (looseAtoms .start before).mapIdx (Atom.pairedBy (parenPairs 0 []
      (looseAtoms .start before ++ looseAtoms (Cursor.start.after before) behind))),
      decide ((atom.start : Int) < place) = true := by
    intro atom mem
    obtain ⟨index, bound, rfl⟩ := List.mem_mapIdx.1 mem
    obtain ⟨piece, mem, found⟩ := List.mem_filterMap.1 (List.getElem_mem bound)
    rw [Atom.start_pairedBy, (Piece.span_of_atom? found).1, decide_eq_true_eq]
    exact starts_before piece mem
  rw [List.filter_eq_self.2 kept, List.append_right_eq_self, List.filter_eq_nil_iff]
  intro atom mem
  obtain ⟨index, bound, rfl⟩ := List.mem_mapIdx.1 mem
  obtain ⟨piece, mem, found⟩ := List.mem_filterMap.1 (List.getElem_mem bound)
  rw [Atom.start_pairedBy, (Piece.span_of_atom? found).1, decide_eq_true_eq]
  exact Int.not_lt.2 (starts_behind piece mem)

/-- Where lexemes split, the keywords met on the way back are those in sight. -/
lemma keywordsBack_split (joint : lexemes text = before ++ behind)
    (starts_before : ∀ piece ∈ placed .start before, (piece.start : Int) < place)
    (starts_behind : ∀ piece ∈ placed (Cursor.start.after before) behind, place ≤ piece.start) :
    keywordsBack ((Script.ofText text).atomsBefore place)
      = (sightBehind (looseAtoms .start before)).flatten := by
  rw [atomsBefore_split joint starts_before starts_behind, joint, looseAtoms_append,
    keywordsBack_pairAtoms]

/-- Walking back from a joint meets what is in sight there. -/
lemma keywordsBack_joint (joint : lexemes text = before ++ behind) :
    keywordsBack ((Script.ofText text).atomsBefore (written before).length)
      = (sightBehind (looseAtoms .start before)).flatten :=
  keywordsBack_split joint (starts_before_joint joint) starts_behind_joint

/-- On a word its keyword is found. -/
lemma keywordAt_word {word : List Char} {offset : Int}
    (joint : lexemes text = before ++ .word word :: behind)
    (lower : (written before).length ≤ offset)
    (upper : offset < ((written before).length + word.length : Nat)) :
    (Script.ofText text).keywordAt offset
      = ((Cursor.start.after before).keyword? word).map fun keyword =>
          ⟨keyword, (written before).length, (written before).length + word.length⟩ := by
  have joint' : lexemes text = (before ++ [.word word]) ++ behind := by
    rw [joint, List.append_assoc, List.singleton_append]
  have starts_before : ∀ piece ∈ placed .start (before ++ [.word word]),
      (piece.start : Int) < offset + 1 := by
    intro piece mem
    rw [placed_append, List.mem_append] at mem
    rcases mem with mem | mem
    · have start := starts_before_joint joint piece mem
      omega
    · obtain rfl := List.mem_singleton.1 mem
      rw [Piece.start, Cursor.start_after_offset]
      omega
  have starts_behind : ∀ piece ∈ placed (Cursor.start.after (before ++ [.word word])) behind,
      offset + 1 ≤ piece.start := by
    intro piece mem
    have start := starts_behind_joint piece mem
    rw [written_append, written_cons, written_nil, List.append_nil, List.length_append,
      Lexeme.text] at start
    omega
  obtain ⟨w, is_word⟩ : ∃ w, Piece.word? ⟨.word word, Cursor.start.after before⟩ = some w :=
    ⟨_, rfl⟩
  have last : ((Script.ofText text).atomsBefore (offset + 1)).getLast? = some (.word w) := by
    have atoms : looseAtoms (Cursor.start.after before) (.word word :: behind)
        = .word w :: looseAtoms ((Cursor.start.after before).advance (.word word)) behind := by
      rw [← Option.some.inj is_word]
      rfl
    have atom : looseAtoms (Cursor.start.after before) [.word word] = [.word w] := by
      rw [← Option.some.inj is_word]
      rfl
    rw [atomsBefore_split joint' starts_before starts_behind, joint, looseAtoms_append,
      looseAtoms_append, atoms, atom, List.length_append, List.length_singleton, take_pairAtoms,
      List.getLast?_concat]
    rfl
  obtain rfl := Option.some.inj is_word
  rw [Script.keywordAt, last]
  simp only [Atom.stop, Piece.stop, Cursor.start_after_offset, Lexeme.length, Lexeme.text]
  rw [if_neg (by omega)]
  simp only [Atom.occurrence?, Piece.start, Cursor.start_after_offset]

/-- At a joint there is no keyword, unless the lexeme behind it is one. -/
lemma keywordAt_eq_none (joint : lexemes text = before ++ behind)
    (no_keyword : ∀ word rest, behind = .word word :: rest →
      (Cursor.start.after before).keyword? word = none) :
    (Script.ofText text).keywordAt (written before).length = none := by
  have none_here : ∀ atom ∈ (Script.ofText text).atomsBefore ((written before).length + 1),
      atom.stop ≤ (written before).length ∨ atom.occurrence? = none := by
    intro atom mem
    obtain ⟨mem, starts⟩ := List.mem_filter.1 mem
    rw [atoms_ofText] at mem
    obtain ⟨index, bound, rfl⟩ := List.mem_mapIdx.1 mem
    obtain ⟨piece, mem, found⟩ := List.mem_filterMap.1 (List.getElem_mem bound)
    rw [Atom.start_pairedBy, (Piece.span_of_atom? found).1, decide_eq_true_eq] at starts
    rw [Atom.stop_pairedBy, (Piece.span_of_atom? found).2, Atom.occurrence?_pairedBy]
    rw [joint, placed_append, List.mem_append] at mem
    rcases mem with mem | mem
    · have stop := stop_le_of_mem_placed mem
      rw [Cursor.start_after_offset] at stop
      exact .inl stop
    · cases behind with
      | nil => cases mem
      | cons lexeme rest =>
        rw [placed_cons] at mem
        rcases List.mem_cons.1 mem with rfl | mem
        · right
          cases lexeme with
          | word word =>
            rw [← Option.some.inj found]
            exact Option.map_eq_none_iff.2 (no_keyword word rest rfl)
          | opening =>
            rw [← Option.some.inj found]
            rfl
          | closing =>
            rw [← Option.some.inj found]
            rfl
          | space c => cases found
          | punctuation run => cases found
          | region kind body closed => cases found
        · -- What comes later begins behind the joint.
          have start := le_start_of_mem_placed mem
          have some_text :=
            List.length_pos_iff.2 (lexemes_eq_iff.1 joint).1.reads.text_ne_nil
          rw [Cursor.offset_advance, Cursor.start_after_offset] at start
          omega
  rw [Script.keywordAt]
  split
  · rename_i atom last
    split
    · rfl
    · rename_i beyond
      exact (none_here atom (List.mem_of_getLast? last)).resolve_left (by omega)
  · rfl

end

/-- The block keywords of some lexemes that stand outside of all groups, in order. -/
def surface (cursor : Cursor) (lexemes : List Lexeme) : List Occurrence :=
  (((placed cursor lexemes).filterMap Piece.word?).filter (·.depth = 0)).filterMap
    fun w => (Atom.word w).occurrence?

/-- The keywords on the surface of two lists stand one behind the other. -/
lemma surface_append (cursor : Cursor) (before behind : List Lexeme) :
    surface cursor (before ++ behind)
      = surface cursor before ++ surface (cursor.after before) behind := by
  simp [surface]

/-- A word is one atom, and on the surface if no parenthesis is open. -/
lemma looseAtoms_word (cursor : Cursor) (text : List Char) :
    ∃ w, looseAtoms cursor [.word text] = [.word w] ∧
      surface cursor [.word text]
        = if cursor.depth = 0 then (Atom.word w).occurrence?.toList else [] := by
  refine ⟨_, rfl, ?_⟩
  simp only [surface, placed_cons, placed_nil, Piece.word?, List.filterMap_cons, List.filterMap_nil,
    List.filter_cons, List.filter_nil, decide_eq_true_eq]
  split
  · simp only [List.filterMap_cons, List.filterMap_nil]
    cases Atom.occurrence? _ <;> rfl
  · rfl

/-- One lexeme changes the groups in sight as it changes the depth, and adds to what stands outside
of all groups only if it stands there itself. -/
lemma look_surface (cursor : Cursor) (lexeme : Lexeme) {inner : List (List Occurrence)}
    (base : List Occurrence) (depth : inner.length = cursor.depth) :
    ∃ inner', (looseAtoms cursor [lexeme]).foldl look (inner ++ [base])
        = inner' ++ [(surface cursor [lexeme]).reverse ++ base] ∧
      inner'.length = (cursor.advance lexeme).depth := by
  cases lexeme with
  | word text =>
    obtain ⟨w, atoms, on_surface⟩ := looseAtoms_word cursor text
    rw [atoms, on_surface, List.foldl_cons, List.foldl_nil, ← depth]
    cases inner with
    | nil =>
      refine ⟨[], ?_, depth⟩
      rw [List.length_nil, if_pos rfl, List.nil_append, look]
      cases (Atom.word w).occurrence? <;> rfl
    | cons group outer => exact ⟨_ :: outer, rfl, depth⟩
  | opening =>
    refine ⟨[] :: inner, ?_, congrArg Nat.succ depth⟩
    cases inner <;> rfl
  | closing =>
    match inner, depth with
    | [], depth =>
      refine ⟨[], rfl, ?_⟩
      rw [show (cursor.advance .closing).depth = cursor.depth - 1 from rfl, ← depth]
      rfl
    | [group], depth =>
      refine ⟨[], rfl, ?_⟩
      rw [show (cursor.advance .closing).depth = cursor.depth - 1 from rfl, ← depth]
      rfl
    | group :: next :: more, depth =>
      refine ⟨next :: more, rfl, ?_⟩
      rw [show (cursor.advance .closing).depth = cursor.depth - 1 from rfl, ← depth]
      rfl
  | space c => exact ⟨inner, rfl, depth⟩
  | punctuation text => exact ⟨inner, rfl, depth⟩
  | region kind text closed => exact ⟨inner, rfl, depth⟩

/-- The groups in sight are as many as the depth, and what stands outside of all groups is seen as
it stands there. -/
lemma sight_surface (cursor : Cursor) (lexemes : List Lexeme) {inner : List (List Occurrence)}
    (base : List Occurrence) (depth : inner.length = cursor.depth) :
    ∃ inner', (looseAtoms cursor lexemes).foldl look (inner ++ [base])
        = inner' ++ [(surface cursor lexemes).reverse ++ base] ∧
      inner'.length = (cursor.after lexemes).depth := by
  induction lexemes generalizing cursor inner base with
  | nil => exact ⟨inner, rfl, depth⟩
  | cons lexeme rest ih =>
    -- What is outside of all groups so far becomes the base for the rest.
    obtain ⟨inner₁, seen₁, depth₁⟩ := look_surface cursor lexeme base depth
    obtain ⟨inner₂, seen₂, depth₂⟩ := ih (cursor.advance lexeme) _ depth₁
    refine ⟨inner₂, ?_, depth₂⟩
    rw [show lexeme :: rest = [lexeme] ++ rest from rfl, looseAtoms_append, List.foldl_append, seen₁,
      surface_append, List.reverse_append, List.append_assoc]
    exact seen₂

/-- There is one level in sight for each open parenthesis, and the surface. -/
lemma length_sight (lexemes : List Lexeme) :
    (sightBehind (looseAtoms .start lexemes)).length = (Cursor.start.after lexemes).depth + 1 := by
  rw [(nested _).length, length_stillWaiting]

/-- Outside of all groups, the keywords in sight are those that stand there. -/
lemma sight_outside {lexemes : List Lexeme} (outside : (Cursor.start.after lexemes).depth = 0) :
    (sightBehind (looseAtoms .start lexemes)).flatten = (surface .start lexemes).reverse := by
  obtain ⟨inner, seen, depth⟩ := @sight_surface .start lexemes [] [] rfl
  obtain rfl : inner = [] := List.length_eq_zero_iff.1 (depth.trans outside)
  rw [sightBehind, show ([[]] : List (List Occurrence)) = [] ++ [[]] from rfl, seen]
  simp

/-- Whether an atom is no parenthesis without a partner. -/
def Atom.isMatched : Atom → Bool
  | .word _ => true
  | .opening _ partner => partner.isSome
  | .closing _ partner => partner.isSome

/-- Every parenthesis has a partner. -/
def Scan.Matched (scan : Scan) : Prop :=
  ∀ atom ∈ scan.atoms, atom.isMatched = true

instance (scan : Scan) : Decidable scan.Matched :=
  inferInstanceAs (Decidable (∀ atom ∈ scan.atoms, atom.isMatched = true))

/-- Where every parenthesis has a partner, the end of the text is outside of all groups. -/
lemma depth_of_matched {text : List Char} (matched : (Scan.ofText text).Matched) :
    (Cursor.start.after (lexemes text)).depth = 0 := by
  rw [← length_stillWaiting, List.length_eq_zero_iff, List.eq_nil_iff_forall_not_mem]
  intro place mem
  obtain ⟨⟨start, partner, here⟩, unpaired⟩ := ((matching _).waits place).1 mem
  have alone : (parenPairs 0 [] (looseAtoms .start (lexemes text))).find? (·.1 = place) = none := by
    rw [List.find?_eq_none]
    intro pair mem
    simpa using unpaired pair mem
  have lone : (Scan.ofText text).atoms[place]? = some (.opening start none) :=
    opening_pairAtoms_iff.2 ⟨⟨partner, here⟩, congrArg _ alone⟩
  exact absurd (matched _ (List.mem_of_getElem? lone)) nofun

/-- The block keyword that a piece is on the surface. -/
def Piece.onSurface? (piece : Piece) : Option Occurrence :=
  piece.word?.bind fun w => if w.depth = 0 then (Atom.word w).occurrence? else none

/-- A keyword on the surface is a word outside of parentheses. -/
lemma Piece.onSurface?_eq_some {piece : Piece} {found : Occurrence}
    (h : piece.onSurface? = some found) :
    ∃ word, piece.lexeme = .word word ∧ piece.cursor.depth = 0 ∧
      piece.cursor.keyword? word = some found.keyword ∧ found.start = piece.start ∧
      found.stop = piece.start + word.length := by
  obtain ⟨lexeme, cursor⟩ := piece
  cases lexeme with
  | word word =>
    simp only [onSurface?, word?, Option.bind_some] at h
    split at h
    · rename_i outside
      obtain ⟨keyword, is_keyword, rfl⟩ := Option.map_eq_some_iff.1 h
      exact ⟨word, rfl, outside, is_keyword, rfl, rfl⟩
    · cases h
  | _ => cases h

/-- The surface is made of the pieces on it. -/
lemma surface_eq (cursor : Cursor) (lexemes : List Lexeme) :
    surface cursor lexemes = (placed cursor lexemes).filterMap Piece.onSurface? := by
  rw [surface, List.filterMap_filter, List.filterMap_filterMap]
  simp only [decide_eq_true_eq]
  rfl

/-- A keyword on the surface starts where its word does. -/
lemma mem_surface {cursor : Cursor} {lexemes : List Lexeme} {found : Occurrence}
    (mem : found ∈ surface cursor lexemes) :
    ∃ piece ∈ placed cursor lexemes, (∃ text, piece.lexeme = .word text) ∧
      found.start = piece.start := by
  rw [surface_eq] at mem
  obtain ⟨piece, here, found⟩ := List.mem_filterMap.1 mem
  obtain ⟨word, same, _, _, start, _⟩ := Piece.onSurface?_eq_some found
  exact ⟨piece, here, ⟨word, same⟩, start⟩

/-- Where a keyword on the surface stands, and what is on the surface before it. -/
lemma exists_of_surface {cursor : Cursor} {lexemes : List Lexeme} {index : Nat} {found : Occurrence}
    (at_index : (surface cursor lexemes)[index]? = some found) :
    ∃ before word behind, lexemes = before ++ .word word :: behind ∧
      (cursor.after before).depth = 0 ∧
      surface cursor before = (surface cursor lexemes).take index ∧
      (cursor.after before).keyword? word = some found.keyword ∧
      found.start = (cursor.after before).offset ∧
      found.stop = (cursor.after before).offset + word.length := by
  rw [surface_eq] at at_index
  obtain ⟨bound, rfl⟩ := List.getElem?_eq_some_iff.1 at_index
  have parts := (List.take_append_drop index ((placed cursor lexemes).filterMap Piece.onSurface?)).symm
  rw [List.drop_eq_getElem_cons bound] at parts
  obtain ⟨earlier, later, same, seen, parts⟩ := List.filterMap_eq_append_iff.1 parts
  obtain ⟨between, piece, rest, rfl, nothing, here, _⟩ := List.filterMap_eq_cons_iff.1 parts
  rw [← List.append_assoc] at same
  obtain ⟨before, behind, split, place, run⟩ := exists_of_placed_eq same
  obtain ⟨word, is_word, outside, keyword, start, stop⟩ := Piece.onSurface?_eq_some here
  rw [is_word] at split
  rw [place] at outside keyword
  rw [Piece.start, place] at start stop
  refine ⟨before, word, behind, split, outside, ?_, keyword, start, stop⟩
  rw [surface_eq, surface_eq, run, List.filterMap_append, seen, List.filterMap_eq_nil_iff.2 nothing,
    List.append_nil]

/-- Where a search for the block around an offset begins. -/
def Script.searchPlace (script : Script) (offset : Int) : Int :=
  (script.contextAt offset).regionStart.elim offset Int.ofNat

/-- From an offset, the search for the block around it walks over what is in sight behind `before`.
These are the pieces that begin before the offset, without a comment or string around it. -/
structure View (text : List Char) (offset : Int) (before behind : List Lexeme) : Prop where
  joint : lexemes text = before ++ behind
  depth : ((Script.ofText text).contextAt offset).depth = (Cursor.start.after before).depth
  back : keywordsBack ((Script.ofText text).atomsBefore ((Script.ofText text).searchPlace offset))
    = (sightBehind (looseAtoms .start before)).flatten
  starts_before : ∀ piece ∈ placed .start before, (piece.start : Int) < offset
  words_behind : ∀ piece ∈ placed (Cursor.start.after before) behind,
    (∃ word, piece.lexeme = .word word) → offset ≤ piece.start

section
variable {text : List Char} {before behind : List Lexeme}

/-- From a joint, what stands before it is seen. -/
lemma View.of_joint (joint : lexemes text = before ++ behind) (closed : AllClosed before) :
    View text (written before).length before behind := by
  have context := contextAt_joint joint closed
  refine ⟨joint, by rw [context], ?_, starts_before_joint joint,
    fun piece mem _ => starts_behind_joint piece mem⟩
  rw [Script.searchPlace, context]
  exact keywordsBack_joint joint

/-- From a joint outside of all groups, the search for the block around it walks over the keywords
that stand there before it. -/
lemma enclosingOpener_joint (joint : lexemes text = before ++ behind) (closed : AllClosed before)
    (outside : (Cursor.start.after before).depth = 0) :
    (Script.ofText text).enclosingOpener (written before).length
      = findOpener false [] (surface .start before).reverse := by
  rw [← sight_outside outside, ← (View.of_joint joint closed).back]
  rfl

/-- Before the text nothing is in view. -/
lemma View.of_nonpos {offset : Int} (not_positive : offset ≤ 0) :
    View text offset [] (lexemes text) := by
  have context : (Script.ofText text).contextAt offset = ⟨none, 0⟩ := by
    rw [contextAt_nonpos not_positive]
    exact contextAt_joint (List.nil_append (lexemes text)).symm allClosed_nil
  have starts_behind : ∀ piece ∈ placed .start (lexemes text), offset ≤ piece.start := by
    intro piece _
    omega
  have starts_before : ∀ piece ∈ placed .start [], (piece.start : Int) < offset := by
    intro piece mem
    cases mem
  refine ⟨rfl, by rw [context]; rfl, ?_, starts_before, fun piece mem _ => starts_behind piece mem⟩
  rw [Script.searchPlace, context]
  exact keywordsBack_split rfl starts_before starts_behind

/-- Beyond the text all of it is in view. -/
lemma View.of_length_lt {offset : Int} (beyond : (text.length : Int) < offset) :
    View text offset (lexemes text) [] := by
  have length : text.length = (written (lexemes text)).length := length_eq_of_lexemes rfl
  have joint : lexemes text = lexemes text ++ [] := (List.append_nil _).symm
  have context := contextAt_beyond beyond
  have starts_before : ∀ piece ∈ placed .start (lexemes text), (piece.start : Int) < offset := by
    intro piece mem
    have bound := starts_before_joint joint piece mem
    omega
  have starts_behind : ∀ piece ∈ placed (Cursor.start.after (lexemes text)) [],
      offset ≤ piece.start := by
    intro piece mem
    cases mem
  refine ⟨joint, by rw [context], ?_, starts_before, fun piece mem _ => starts_behind piece mem⟩
  rw [Script.searchPlace, context]
  exact keywordsBack_split joint starts_before starts_behind

/-- From inside of a comment or string the lexemes before it are in view. -/
lemma View.of_inside {kind : RegionKind} {body : List Char} {closed : Bool} {inside : Nat}
    (joint : lexemes text = before ++ .region kind body closed :: behind) (some_inside : 0 < inside)
    (bound : inside < body.length ∨ closed = false ∧ inside = body.length) :
    View text ((written before).length + inside : Nat) before
      (.region kind body closed :: behind) := by
  have context := contextAt_inside joint some_inside bound
  refine ⟨joint, by rw [context], ?_, ?_, ?_⟩
  · rw [Script.searchPlace, context]
    exact keywordsBack_joint joint
  · intro piece mem
    have start := starts_before_joint joint piece mem
    omega
  · intro piece mem is_word
    rw [placed_cons] at mem
    rcases List.mem_cons.1 mem with rfl | mem
    · obtain ⟨word, same⟩ := is_word
      cases same
    · have start := le_start_of_mem_placed mem
      rw [Cursor.offset_advance, Cursor.start_after_offset, Lexeme.text] at start
      omega

/-- From inside of a lexeme of code that lexeme is in view too. -/
lemma View.of_between {lexeme : Lexeme} {inside : Nat}
    (joint : lexemes text = before ++ lexeme :: behind)
    (no_region : ∀ kind body closed, lexeme ≠ .region kind body closed) (some_inside : 0 < inside)
    (bound : inside < lexeme.text.length) :
    View text ((written before).length + inside : Nat) (before ++ [lexeme]) behind := by
  have context := contextAt_between joint no_region some_inside bound
  have joint' : lexemes text = (before ++ [lexeme]) ++ behind := by
    rw [joint, List.append_assoc, List.singleton_append]
  have starts_before : ∀ piece ∈ placed .start (before ++ [lexeme]),
      (piece.start : Int) < ((written before).length + inside : Nat) := by
    intro piece mem
    rw [placed_append, List.mem_append] at mem
    rcases mem with mem | mem
    · have start := starts_before_joint joint piece mem
      omega
    · obtain rfl := List.mem_singleton.1 mem
      rw [Piece.start, Cursor.start_after_offset]
      omega
  have starts_behind : ∀ piece ∈ placed (Cursor.start.after (before ++ [lexeme])) behind,
      (((written before).length + inside : Nat) : Int) ≤ piece.start := by
    intro piece mem
    have start := le_start_of_mem_placed mem
    rw [Cursor.start_after_offset, written_append, written_cons, written_nil, List.append_nil,
      List.length_append] at start
    omega
  refine ⟨joint', ?_, ?_, starts_before, fun piece mem _ => starts_behind piece mem⟩
  · -- Parentheses have no inside, so the lexeme leaves the depth as it is.
    rw [context, Cursor.after_append, Cursor.after_cons, Cursor.after_nil]
    cases lexeme with
    | opening => exact absurd bound (Nat.not_lt.2 some_inside)
    | closing => exact absurd bound (Nat.not_lt.2 some_inside)
    | _ => rfl
  · rw [Script.searchPlace, context]
    exact keywordsBack_split joint' starts_before starts_behind

end

/-- Every offset has some lexemes in view. -/
lemma exists_view (text : List Char) (offset : Int) :
    ∃ before behind, View text offset before behind := by
  by_cases not_positive : offset ≤ 0
  · exact ⟨[], lexemes text, .of_nonpos not_positive⟩
  by_cases beyond : (text.length : Int) < offset
  · exact ⟨lexemes text, [], .of_length_lt beyond⟩
  obtain ⟨offset, rfl⟩ := Int.eq_ofNat_of_zero_le (show 0 ≤ offset from by omega)
  cases place_of_le (show offset ≤ text.length from by omega) with
  | joint joint closed => exact ⟨_, _, .of_joint joint closed⟩
  | between joint no_region some_inside bound =>
    exact ⟨_, _, .of_between joint no_region some_inside bound⟩
  | inside joint some_inside bound => exact ⟨_, _, .of_inside joint some_inside bound⟩

end KixScript

import KixScript.Proofs.Nesting
import KixScript.Proofs.Sight

/-!
# Finding the blocks of a well-nested script

The parse of a sequence of keywords is a nest. Its blocks are known by the places of their opener,
branches and closer in the sequence (`Extent`). The searches answer from the parse: a closer or a
branch finds the opener of its block, and an offset finds the latest mark of the innermost block
around it.
-/

namespace KixScript

/-- A block in a sequence of keywords, by the places of its opener, its branches and its closer. -/
structure Extent where
  head : Nat
  branches : List Nat
  closer : Nat
  head_lt : ∀ index ∈ closer :: branches, head < index

namespace Extent

/-- Behind the first `count` keywords the block has begun and is not closed. -/
def OpenAt (extent : Extent) (count : Nat) : Prop :=
  extent.head < count ∧ count ≤ extent.closer

/-- The latest of the opener and the branches among the first `count` keywords. -/
def latestMark (extent : Extent) (count : Nat) : Nat :=
  (extent.branches.filter (· < count)).getLast?.getD extent.head

/-- The latest mark of an open block lies before. -/
lemma latestMark_lt {extent : Extent} {count : Nat} (is_open : extent.OpenAt count) :
    extent.latestMark count < count := by
  rw [latestMark]
  cases latest : (extent.branches.filter (· < count)).getLast? with
  | none => exact is_open.1
  | some index =>
    have mem := List.mem_of_getLast? latest
    simpa using (List.mem_filter.1 mem).2

end Extent

/-- Among some blocks, the innermost one that is open behind the first `count` keywords. -/
structure Innermost (extents : List Extent) (count : Nat) (extent : Extent) : Prop where
  mem : extent ∈ extents
  isOpen : extent.OpenAt count
  latest : ∀ other ∈ extents, other.OpenAt count → other.head ≤ extent.head

namespace Nest
variable {α : Type} {β : Keyword → Type}

/-- The number of keywords. -/
def size {next : Option Branch} (nest : Nest α β next) : Nat :=
  nest.keywords.length

/-- The places of the branches that divide the block which holds the nest, where the first keyword
of the nest has the place `place`. -/
def branchPlaces (place : Nat) : {next : Option Branch} → Nest α β next → List Nat
  | _, done => []
  | _, leaf _ rest => rest.branchPlaces place
  | _, block _ _ inner _ rest => rest.branchPlaces (place + inner.size + 2)
  | _, branch _ _ rest => place :: rest.branchPlaces (place + 1)

variable {next : Option Branch} {place : Nat}

/-- A block has the keywords inside of it and two more. -/
lemma size_block {kind : BlockKind} {head : β (.opener kind)} {inner : Nest α β kind.branch?}
    {close : β (.closer kind)} {rest : Nest α β next} :
    (block kind head inner close rest).size = inner.size + rest.size + 2 := by
  simp only [size, keywords, List.length_cons, List.length_append]
  omega

/-- A branch is one keyword more. -/
lemma size_branch {b : Branch} {mark : β (.branch b)} {rest : Nest α β b.next?} :
    (branch b mark rest).size = rest.size + 1 := rfl

/-- The branches of a nest lie in it. -/
lemma branchPlaces_bounds {nest : Nest α β next} {index : Nat}
    (mem : index ∈ nest.branchPlaces place) : place ≤ index ∧ index < place + nest.size := by
  induction nest generalizing place with
  | done => cases mem
  | leaf _ rest ih => exact ih mem
  | block kind _ inner _ rest _ ih =>
    have bounds := ih mem
    rw [size_block]
    omega
  | branch b _ rest ih =>
    rw [size_branch]
    rw [branchPlaces] at mem
    rcases List.mem_cons.1 mem with rfl | mem
    · omega
    · have bounds := ih mem
      omega

/-- The branches and the closer of a block come behind its head. -/
lemma lt_of_mem_ends {nest : Nest α β next} {index : Nat}
    (mem : index ∈ (place + 1 + nest.size) :: nest.branchPlaces (place + 1)) : place < index := by
  rcases List.mem_cons.1 mem with rfl | mem
  · omega
  · exact (branchPlaces_bounds mem).1

/-- The blocks of a nest, where its first keyword has the place `place`. -/
def extents (place : Nat) : {next : Option Branch} → Nest α β next → List Extent
  | _, done => []
  | _, leaf _ rest => rest.extents place
  | _, block _ _ inner _ rest =>
    ⟨place, inner.branchPlaces (place + 1), place + 1 + inner.size, fun _ => lt_of_mem_ends⟩
      :: (inner.extents (place + 1) ++ rest.extents (place + inner.size + 2))
  | _, branch _ _ rest => rest.extents (place + 1)

/-- The blocks of a nest lie in it. -/
lemma extents_bounds {nest : Nest α β next} {extent : Extent}
    (mem : extent ∈ nest.extents place) :
    place ≤ extent.head ∧ extent.head < extent.closer ∧ extent.closer < place + nest.size := by
  induction nest generalizing place with
  | done => cases mem
  | leaf _ rest ih => exact ih mem
  | block kind _ inner _ rest ih_inner ih_rest =>
    rw [size_block]
    rw [extents] at mem
    rcases List.mem_cons.1 mem with rfl | mem
    · dsimp only
      omega
    rcases List.mem_append.1 mem with mem | mem
    · have bounds := ih_inner mem
      omega
    · have bounds := ih_rest mem
      omega
  | branch b _ rest ih =>
    have bounds := ih mem
    rw [size_branch]
    omega

/-- Only a block that can be divided holds branches. -/
lemma branchPlaces_undivided (nest : Nest α β none) (place : Nat) :
    nest.branchPlaces place = [] := by
  match nest with
  | done => rfl
  | leaf _ rest => exact rest.branchPlaces_undivided place
  | block _ _ inner _ rest => exact rest.branchPlaces_undivided (place + inner.size + 2)

/-- Every closer and every branch is part of a block: of one in the nest, or of the one that holds
the nest. -/
lemma exists_extent {nest : Nest α β next} {index : Nat} {keyword : Keyword}
    (found : nest.keywords[index]? = some keyword) (closes : keyword.closes = true) :
    place + index ∈ nest.branchPlaces place ∨
      ∃ extent ∈ nest.extents place, place + index ∈ extent.closer :: extent.branches := by
  induction nest generalizing place index with
  | done => cases found
  | leaf _ rest ih => exact ih found
  | block kind _ inner _ rest ih_inner ih_rest =>
    rw [keywords] at found
    cases index with
    | zero =>
      obtain rfl := Option.some.inj found
      cases closes
    | succ index =>
      rw [List.getElem?_cons_succ] at found
      rw [branchPlaces, extents, show place + (index + 1) = place + 1 + index from by omega]
      rcases Nat.lt_trichotomy index inner.keywords.length with inside | rfl | behind
      · rw [List.getElem?_append_left inside] at found
        rcases ih_inner found with own | ⟨extent, mem, here⟩
        · exact .inr ⟨_, List.mem_cons_self, List.mem_cons_of_mem _ own⟩
        · exact .inr ⟨extent, List.mem_cons_of_mem _ (List.mem_append_left _ mem), here⟩
      · exact .inr ⟨_, List.mem_cons_self, List.mem_cons_self⟩
      · obtain ⟨beyond, rfl⟩ : ∃ beyond, index = inner.size + 1 + beyond :=
          ⟨index - (inner.size + 1), by rw [size]; omega⟩
        rw [List.getElem?_append_right (by rw [size]; omega), size,
          show inner.keywords.length + 1 + beyond - inner.keywords.length = beyond + 1 from by omega,
          List.getElem?_cons_succ] at found
        have ih := @ih_rest (place + inner.size + 2) _ found
        rw [show place + inner.size + 2 + beyond = place + 1 + (inner.size + 1 + beyond)
          from by omega] at ih
        rcases ih with own | ⟨extent, mem, here⟩
        · exact .inl own
        · exact .inr ⟨extent, List.mem_cons_of_mem _ (List.mem_append_right _ mem), here⟩
  | branch b _ rest ih =>
    rw [keywords] at found
    cases index with
    | zero => exact .inl List.mem_cons_self
    | succ index =>
      rw [List.getElem?_cons_succ] at found
      rw [show place + (index + 1) = place + 1 + index from by omega]
      rcases ih found with own | there
      · exact .inl (List.mem_cons_of_mem _ own)
      · exact .inr there

end Nest

section
variable {α : Type} {β : Keyword → Type} {next : Option Branch} {nest : Nest α β next}
  {all before occurrences behind : List Occurrence}

/-- Keywords that spell a block are split where its parts meet. -/
lemma Nest.split_block {kind : BlockKind} {inner : Nest α β kind.branch?}
    (spelled : occurrences.map Occurrence.keyword
      = .opener kind :: (inner.keywords ++ .closer kind :: nest.keywords))
    (split : all = before ++ occurrences ++ behind) :
    ∃ head inside close more, occurrences = head :: (inside ++ close :: more) ∧
      head.keyword = .opener kind ∧ inside.map Occurrence.keyword = inner.keywords ∧
      close.keyword = .closer kind ∧ more.map Occurrence.keyword = nest.keywords ∧
      all = before ++ [head] ++ inside ++ close :: (more ++ behind) ∧
      all = before ++ head :: (inside ++ [close]) ++ more ++ behind ∧
      (before ++ head :: (inside ++ [close])).length = before.length + inner.size + 2 := by
  obtain ⟨head, inside, close, more, rfl, opens, inside_spelled, closes, more_spelled⟩ :=
    Nest.exists_of_block spelled
  refine ⟨head, inside, close, more, rfl, opens, inside_spelled, closes, more_spelled,
    by simpa using split, by simpa using split, ?_⟩
  rw [Nest.size, ← inside_spelled, List.length_map]
  simp only [List.length_append, List.length_cons, List.length_nil]
  omega

/-- The owner of what comes before a nest owns the branches in it, and what comes behind it. -/
lemma Owns.through {kind : BlockKind} {opener : Occurrence} (owns : Owns kind opener before.reverse)
    (spelled : occurrences.map Occurrence.keyword = nest.keywords)
    (split : all = before ++ occurrences ++ behind) :
    Owns kind opener (before ++ occurrences).reverse ∧
      ∀ index ∈ nest.branchPlaces before.length, ∃ found, all[index]? = some found ∧
        found.keyword.role = .both ∧ Owns kind opener (all.take index).reverse := by
  induction nest generalizing before occurrences with
  | done =>
    obtain rfl := List.map_eq_nil_iff.1 spelled
    exact ⟨by rwa [List.append_nil], nofun⟩
  | leaf _ rest ih => exact ih owns spelled split
  | block kind' _ inner _ rest _ ih =>
    obtain ⟨head, inside, close, more, rfl, opens, inside_spelled, closes, more_spelled, _,
      split_rest, length⟩ := Nest.split_block spelled split
    have owns' : Owns kind opener (before ++ head :: (inside ++ [close])).reverse := by
      simpa using owns.block opens inside_spelled closes
    obtain ⟨owns_behind, owns_branches⟩ := ih owns' more_spelled split_rest
    rw [length] at owns_branches
    exact ⟨by simpa using owns_behind, owns_branches⟩
  | branch b _ rest ih =>
    obtain ⟨mark, more, rfl, divides, more_spelled⟩ := List.map_eq_cons_iff.1 spelled
    have owns' : Owns kind opener (before ++ [mark]).reverse := by
      rw [List.reverse_concat]
      exact owns.branch divides
    obtain ⟨owns_behind, owns_branches⟩ := ih owns' more_spelled (by simpa using split)
    rw [List.length_append, List.length_singleton] at owns_branches
    refine ⟨by simpa using owns_behind, ?_⟩
    intro index mem
    rw [Nest.branchPlaces] at mem
    rcases List.mem_cons.1 mem with rfl | mem
    · refine ⟨mark, by simp [split], by rw [divides]; rfl, ?_⟩
      rwa [split, List.append_assoc, List.take_left]
    · exact owns_branches index mem

/-- In a nest, the closer and the branches of a block find its opener. -/
lemma findOpener_of_extent (spelled : occurrences.map Occurrence.keyword = nest.keywords)
    (split : all = before ++ occurrences ++ behind) {extent : Extent}
    (mem : extent ∈ nest.extents before.length) {index : Nat}
    (here : index ∈ extent.closer :: extent.branches) :
    ∃ opener found, all[extent.head]? = some opener ∧ all[index]? = some found ∧
      findOpener true [found.keyword] (all.take index).reverse = some opener := by
  induction nest generalizing before occurrences behind with
  | done => cases mem
  | leaf _ rest ih => exact ih spelled split mem
  | block kind _ inner _ rest ih_inner ih_rest =>
    obtain ⟨head, inside, close, more, rfl, opens, inside_spelled, closes, more_spelled, split_inner,
      split_rest, length⟩ := Nest.split_block spelled split
    have length_inner : (before ++ [head]).length = before.length + 1 := List.length_append
    rw [Nest.extents] at mem
    rcases List.mem_cons.1 mem with rfl | mem
    · have owns : Owns kind head (before ++ [head]).reverse := by
        rw [List.reverse_concat]
        exact owns_opener opens before.reverse
      obtain ⟨owns_close, owns_branches⟩ := owns.through inside_spelled split_inner
      dsimp only at here ⊢
      have at_head : all[before.length]? = some head := by simp [split]
      rcases List.mem_cons.1 here with rfl | here
      · have place : before.length + 1 + inner.size = (before ++ [head] ++ inside).length := by
          rw [Nest.size, ← inside_spelled, List.length_append, length_inner, List.length_map]
        have at_close : all[(before ++ [head] ++ inside).length]? = some close := by
          rw [split_inner, List.getElem?_append_right (Nat.le_refl _), Nat.sub_self]
          rfl
        rw [place]
        refine ⟨head, close, at_head, at_close, ?_⟩
        rw [split_inner, List.take_left]
        exact owns_close.find (.inl closes)
      · rw [← length_inner] at here
        obtain ⟨found, at_index, divides, owns'⟩ := owns_branches index here
        exact ⟨head, found, at_head, at_index, owns'.find (.inr divides)⟩
    rcases List.mem_append.1 mem with mem | mem
    · rw [← length_inner] at mem
      exact ih_inner inside_spelled split_inner mem
    · rw [← length] at mem
      exact ih_rest more_spelled split_rest mem
  | branch b _ rest ih =>
    obtain ⟨mark, more, rfl, divides, more_spelled⟩ := List.map_eq_cons_iff.1 spelled
    have length : (before ++ [mark]).length = before.length + 1 := List.length_append
    rw [Nest.extents, ← length] at mem
    exact ih more_spelled (by simpa using split) mem

/-- Where a nest begins, its last branch is found or what is found before it. -/
lemma findOpener_at_nest (nest : Nest α β next) (split : all = before ++ occurrences ++ behind) :
    findOpener false [] (all.take before.length).reverse
      = ((nest.branchPlaces before.length).filter (· < before.length)).getLast?.elim
          (findOpener false [] before.reverse) (all[·]?) := by
  have nothing : (nest.branchPlaces before.length).filter (· < before.length) = [] := by
    rw [List.filter_eq_nil_iff]
    intro index mem
    have bounds := Nest.branchPlaces_bounds mem
    simp only [decide_eq_true_eq]
    omega
  rw [nothing, split, List.append_assoc, List.take_left]
  rfl

/-- Where no block of a nest is open, the search comes to the latest branch of the block that holds
the nest, or to what it comes to before the nest. -/
lemma findOpener_of_closed (spelled : occurrences.map Occurrence.keyword = nest.keywords)
    (split : all = before ++ occurrences ++ behind) {count : Nat} (lower : before.length ≤ count)
    (upper : count ≤ before.length + nest.size)
    (closed : ∀ extent ∈ nest.extents before.length, ¬ extent.OpenAt count) :
    findOpener false [] (all.take count).reverse
      = ((nest.branchPlaces before.length).filter (· < count)).getLast?.elim
          (findOpener false [] before.reverse) (all[·]?) := by
  induction nest generalizing before occurrences with
  | done =>
    obtain rfl : before.length = count := Nat.le_antisymm lower upper
    exact findOpener_at_nest .done split
  | leaf _ rest ih => exact ih spelled split lower upper closed
  | block kind _ inner _ rest _ ih =>
    rcases Nat.eq_or_lt_of_le lower with rfl | begun
    · exact findOpener_at_nest (.block kind _ inner _ rest) split
    obtain ⟨head, inside, close, more, rfl, opens, inside_spelled, closes, more_spelled, _,
      split_rest, length⟩ := Nest.split_block spelled split
    rw [Nest.extents] at closed
    rw [Nest.size_block] at upper
    -- A block that has begun is complete, so it is walked over.
    have ended : before.length + inner.size + 2 ≤ count := by
      have not_open := closed _ List.mem_cons_self
      simp only [Extent.OpenAt] at not_open
      omega
    have back : (before ++ head :: (inside ++ [close])).reverse
        = close :: (inside.reverse ++ head :: before.reverse) := by
      simp
    have ih := ih more_spelled split_rest (by omega) (by omega) (by
      intro extent mem
      rw [length] at mem
      exact closed extent (List.mem_cons_of_mem _ (List.mem_append_right _ mem)))
    rw [ih, back, findOpener_block opens inside_spelled closes (by simp), length]
    rfl
  | branch b _ rest ih =>
    rcases Nat.eq_or_lt_of_le lower with rfl | begun
    · exact findOpener_at_nest (.branch b _ rest) split
    obtain ⟨mark, more, rfl, divides, more_spelled⟩ := List.map_eq_cons_iff.1 spelled
    rw [Nest.size_branch] at upper
    have split_rest : all = before ++ [mark] ++ more ++ behind := by simpa using split
    have length : (before ++ [mark]).length = before.length + 1 := List.length_append
    have at_mark : findOpener false [] (before ++ [mark]).reverse = all[before.length]? := by
      rw [List.reverse_concat, findOpener_branch_nil divides]
      simp [split]
    rw [ih more_spelled split_rest (by omega) (by omega) (by rwa [length]), at_mark, length,
      Nest.branchPlaces, List.filter_cons_of_pos (by simpa using begun), List.getLast?_cons]
    cases ((rest.branchPlaces (before.length + 1)).filter (· < count)).getLast? <;> rfl

/-- Where a block of a nest is open, the search comes to the latest mark of the innermost one. -/
lemma findOpener_of_innermost (spelled : occurrences.map Occurrence.keyword = nest.keywords)
    (split : all = before ++ occurrences ++ behind) {count : Nat} {extent : Extent}
    (innermost : Innermost (nest.extents before.length) count extent) :
    findOpener false [] (all.take count).reverse = all[extent.latestMark count]? := by
  induction nest generalizing before occurrences behind with
  | done => cases innermost.mem
  | leaf _ rest ih => exact ih spelled split innermost
  | block kind _ inner _ rest ih_inner ih_rest =>
    obtain ⟨head, inside, close, more, rfl, opens, inside_spelled, closes, more_spelled, split_inner,
      split_rest, length⟩ := Nest.split_block spelled split
    have length_inner : (before ++ [head]).length = before.length + 1 := List.length_append
    obtain ⟨mem, is_open, latest⟩ := innermost
    rw [Nest.extents] at mem latest
    rcases List.mem_cons.1 mem with rfl | mem
    · obtain ⟨begun, not_ended⟩ := is_open
      -- Any open block inside would begin later and be the innermost one.
      have closed : ∀ other ∈ inner.extents (before ++ [head]).length, ¬ other.OpenAt count := by
        intro other mem is_open
        rw [length_inner] at mem
        have bounds := Nest.extents_bounds mem
        have earlier := latest other (List.mem_cons_of_mem _ (List.mem_append_left _ mem)) is_open
        dsimp only at earlier
        omega
      have at_head : findOpener false [] (before ++ [head]).reverse = all[before.length]? := by
        rw [List.reverse_concat, findOpener_opener_nil opens]
        simp [split]
      dsimp only at begun not_ended
      rw [findOpener_of_closed inside_spelled split_inner (by omega) (by omega) closed, at_head,
        length_inner, Extent.latestMark]
      cases ((inner.branchPlaces (before.length + 1)).filter (· < count)).getLast? <;> rfl
    rcases List.mem_append.1 mem with mem | mem
    · apply ih_inner inside_spelled split_inner
      rw [length_inner]
      exact ⟨mem, is_open, fun other mem =>
        latest other (List.mem_cons_of_mem _ (List.mem_append_left _ mem))⟩
    · apply ih_rest more_spelled split_rest
      rw [length]
      exact ⟨mem, is_open, fun other mem =>
        latest other (List.mem_cons_of_mem _ (List.mem_append_right _ mem))⟩
  | branch b _ rest ih =>
    obtain ⟨mark, more, rfl, divides, more_spelled⟩ := List.map_eq_cons_iff.1 spelled
    have split_rest : all = before ++ [mark] ++ more ++ behind := by simpa using split
    apply ih more_spelled split_rest
    rw [List.length_append]
    exact innermost

end

namespace Script

/-- The block keywords of a script that stand outside of all groups in parentheses, in order. -/
def blockKeywords (script : Script) : List Occurrence :=
  (script.scan.words.filter (·.depth = 0)).filterMap fun w => (Atom.word w).occurrence?

/-- The number of block keywords that start before an offset. -/
def keywordsBefore (script : Script) (offset : Int) : Nat :=
  (script.blockKeywords.filter fun found => found.start < offset).length

/-- Every closer and every branch is part of one of the blocks, and from any offset in its word the
opener of that block is found. -/
def FindsHeads (script : Script) (extents : List Extent) : Prop :=
  ∀ index found, script.blockKeywords[index]? = some found → found.keyword.closes = true →
    (∃ extent ∈ extents, index ∈ extent.closer :: extent.branches) ∧
    ∀ extent ∈ extents, index ∈ extent.closer :: extent.branches →
      ∃ opener, script.blockKeywords[extent.head]? = some opener ∧
        ∀ offset : Int, found.start ≤ offset → offset < found.stop →
          script.matchingOpener offset = some opener

/-- From any offset outside of all groups, the latest opener or branch of the innermost block around
it is found, and nothing where every block that has begun is closed. -/
def FindsInnermost (script : Script) (extents : List Extent) : Prop :=
  ∀ offset : Int, (script.contextAt offset).depth = 0 →
    (∀ extent, Innermost extents (script.keywordsBefore offset) extent →
      ∃ mark, script.blockKeywords[extent.latestMark (script.keywordsBefore offset)]? = some mark ∧
        script.enclosingOpener offset = some mark) ∧
    ((∀ extent ∈ extents, ¬ extent.OpenAt (script.keywordsBefore offset)) →
      script.enclosingOpener offset = none)

end Script

section
variable {text : List Char}

/-- The block keywords of a script are those on its surface. -/
lemma blockKeywords_ofText (text : List Char) :
    (Script.ofText text).blockKeywords = surface .start (lexemes text) := rfl

/-- Outside of all groups, the search for the block around an offset walks over the block keywords
before it. -/
lemma enclosingOpener_outside {offset : Int}
    (outside : ((Script.ofText text).contextAt offset).depth = 0) :
    (Script.ofText text).enclosingOpener offset
      = findOpener false []
          ((Script.ofText text).blockKeywords.take
            ((Script.ofText text).keywordsBefore offset)).reverse := by
  obtain ⟨before, behind, view⟩ := exists_view text offset
  have seen : (Script.ofText text).blockKeywords.take ((Script.ofText text).keywordsBefore offset)
      = surface .start before := by
    have count : (Script.ofText text).keywordsBefore offset = (surface .start before).length := by
      rw [Script.keywordsBefore, blockKeywords_ofText, view.joint, surface_append,
        List.filter_append, List.filter_eq_self.2, List.filter_eq_nil_iff.2, List.append_nil]
      · intro found mem
        obtain ⟨piece, here, is_word, start⟩ := mem_surface mem
        rw [start, decide_eq_true_eq]
        exact Int.not_lt.2 (view.words_behind piece here is_word)
      · intro found mem
        obtain ⟨piece, here, _, start⟩ := mem_surface mem
        rw [start, decide_eq_true_eq]
        exact view.starts_before piece here
    rw [count, blockKeywords_ofText, view.joint, surface_append, List.take_left]
  rw [seen, ← sight_outside (view.depth.symm.trans outside), ← view.back]
  rfl

/-- On a closing keyword the search begins with the keywords before it. -/
lemma matchingOpener_keyword {index : Nat} {found : Occurrence}
    (at_index : (Script.ofText text).blockKeywords[index]? = some found)
    (closes : found.keyword.closes = true) {offset : Int} (lower : found.start ≤ offset)
    (upper : offset < found.stop) :
    (Script.ofText text).matchingOpener offset
      = findOpener true [found.keyword] ((Script.ofText text).blockKeywords.take index).reverse := by
  obtain ⟨before, word, behind, joint, outside, seen, keyword, start, stop⟩ :=
    exists_of_surface at_index
  rw [Cursor.start_after_offset] at start stop
  have here : (Script.ofText text).keywordAt offset = some found := by
    rw [keywordAt_word joint (by omega) (by omega), keyword, ← stop, ← start]
    rfl
  rw [Script.matchingOpener, here]
  dsimp only
  rw [if_pos closes, start, keywordsBack_joint joint, sight_outside outside, seen]
  rfl

/-- Keywords that begin a sentence can be completed. -/
lemma exists_completion {keywords : List Keyword} {occurrences : List Occurrence}
    (begins : occurrences.map Occurrence.keyword <+: keywords) :
    ∃ more, (occurrences ++ more).map Occurrence.keyword = keywords := by
  obtain ⟨rest, rfl⟩ := begins
  refine ⟨rest.map fun keyword => ⟨keyword, 0, 0⟩, ?_⟩
  simp [Function.comp_def]

section
variable {parse : Nest Empty (fun _ => Unit) none}
  (sentence : (Script.ofText text).blockKeywords.map Occurrence.keyword <+: parse.keywords)
include sentence

/-- Each closer of a sentence finds the head of its block. -/
lemma findsHeads_of_sentence : (Script.ofText text).FindsHeads (parse.extents 0) := by
  intro index found at_index closes
  obtain ⟨more, spelled⟩ := exists_completion sentence
  have split : (Script.ofText text).blockKeywords ++ more
      = [] ++ ((Script.ofText text).blockKeywords ++ more) ++ [] := (List.append_nil _).symm
  have bound : index < (Script.ofText text).blockKeywords.length :=
    (List.getElem?_eq_some_iff.1 at_index).1
  refine ⟨?_, ?_⟩
  · have in_parse : parse.keywords[index]? = some found.keyword := by
      rw [← spelled, List.getElem?_map, List.getElem?_append_left bound, at_index]
      rfl
    have part := @Nest.exists_extent _ _ _ 0 _ _ _ in_parse closes
    rw [parse.branchPlaces_undivided, Nat.zero_add] at part
    exact part.resolve_left nofun
  · intro extent mem here
    obtain ⟨opener, found', at_head, at_index', finds⟩ :=
      findOpener_of_extent spelled split mem here
    have before := extent.head_lt index here
    rw [List.getElem?_append_left (by omega)] at at_head at_index'
    obtain rfl := Option.some.inj (at_index.symm.trans at_index')
    refine ⟨opener, at_head, ?_⟩
    intro offset lower upper
    rw [matchingOpener_keyword at_index closes lower upper, ← finds,
      List.take_append_of_le_length (Nat.le_of_lt bound)]

/-- Each offset of a sentence finds the innermost block around it. -/
lemma findsInnermost_of_sentence : (Script.ofText text).FindsInnermost (parse.extents 0) := by
  intro offset outside
  obtain ⟨more, spelled⟩ := exists_completion sentence
  have split : (Script.ofText text).blockKeywords ++ more
      = [] ++ ((Script.ofText text).blockKeywords ++ more) ++ [] := (List.append_nil _).symm
  have bound : (Script.ofText text).keywordsBefore offset
      ≤ (Script.ofText text).blockKeywords.length := List.length_filter_le _ _
  rw [enclosingOpener_outside outside, ← List.take_append_of_le_length bound]
  refine ⟨?_, ?_⟩
  · intro extent innermost
    have latest := Extent.latestMark_lt innermost.isOpen
    rw [findOpener_of_innermost spelled split innermost, List.getElem?_append_left (by omega)]
    exact ⟨_, List.getElem?_eq_getElem (by omega), List.getElem?_eq_getElem (by omega)⟩
  · intro closed
    have size : parse.size = ((Script.ofText text).blockKeywords ++ more).length := by
      rw [Nest.size, ← spelled, List.length_map]
    rw [List.length_append] at size
    rw [findOpener_of_closed spelled split (Nat.zero_le _) (by rw [List.length_nil]; omega) closed,
      parse.branchPlaces_undivided]
    rfl

end

end

/-- Where the block keywords of a script begin a sentence, the searches answer from its parse. -/
theorem openers_follow_parse (text : List Char) (parse : Nest Empty (fun _ => Unit) none)
    (sentence : (Script.ofText text).blockKeywords.map Occurrence.keyword <+: parse.keywords) :
    (Script.ofText text).FindsHeads (parse.extents 0) ∧
      (Script.ofText text).FindsInnermost (parse.extents 0) :=
  ⟨findsHeads_of_sentence sentence, findsInnermost_of_sentence sentence⟩

/-- A `Select` whose first branch holds a complete `If`, and whose second one is cut off. -/
def unfinishedSelect : List Char :=
  "Select\nCase 1 IF ($o.Do) ; Loop\nElse 'Next' EndIf\ncase 2 While ".toList

/-- A sentence that begins with the block keywords of `unfinishedSelect`. -/
def finishedSelect : Nest Empty (fun _ => Unit) none :=
  .block .select () (.branch .caseBranch () (.block .conditional () (.branch .elseBranch () .done) ()
    (.branch .caseBranch () (.block .whileLoop () .done () .done)))) () .done

/-- In a `Select` that is cut off, heads and innermost blocks are found. -/
theorem openers_of_unfinishedSelect :
    (Script.ofText unfinishedSelect).blockKeywords.map Occurrence.keyword <+: finishedSelect.keywords ∧
      (Script.ofText unfinishedSelect).FindsHeads (finishedSelect.extents 0) ∧
      (Script.ofText unfinishedSelect).FindsInnermost (finishedSelect.extents 0) :=
  ⟨by decide +kernel, openers_follow_parse unfinishedSelect finishedSelect (by decide +kernel)⟩

end KixScript

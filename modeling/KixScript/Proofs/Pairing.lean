import KixScript.Proofs.Atoms
import KixScript.Proofs.Resolution

/-!
# Pairs of closers and openers

What a search for the opener of a closer does in any sequence of keywords, well-nested or not. As long
as the closer waits (`Seeks`), nothing below it matters; and when its opener is met, the search for
what waits below goes on before that opener (`Seeks.step`, `Seeks.run`). The search for a later closer
therefore does what the search for an earlier one does, with its own keywords underneath, and the two
pairs do not cross (`pairs_never_cross`).
-/

namespace KixScript

/-- The closer of a block of this kind waits for its opener, below all others. -/
def Seeks (kind : BlockKind) (waiting : List Keyword) : Prop :=
  ∃ upper, waiting = upper ++ [.closer kind]

namespace Seeks
variable {kind : BlockKind} {waiting : List Keyword}

/-- A closer on its own waits below all others. -/
lemma single (kind : BlockKind) : Seeks kind [.closer kind] :=
  ⟨[], rfl⟩

/-- Whatever comes to wait above, the closer still waits. -/
lemma cons (seeks : Seeks kind waiting) (keyword : Keyword) : Seeks kind (keyword :: waiting) := by
  obtain ⟨upper, rfl⟩ := seeks
  exact ⟨keyword :: upper, rfl⟩

/-- While the closer waits, something waits. -/
lemma append_ne_nil (seeks : Seeks kind waiting) (below : List Keyword) : waiting ++ below ≠ [] := by
  obtain ⟨upper, rfl⟩ := seeks
  simp

/-- Dropping the branches on top does not reach a closer. -/
lemma exists_drop (upper : List Keyword) (kind : BlockKind) :
    ∃ upper' : List Keyword, ∀ below : List Keyword,
      (upper ++ .closer kind :: below).dropWhile (fun keyword => keyword.role == .both)
        = upper' ++ .closer kind :: below := by
  induction upper with
  | nil => exact ⟨[], fun below => rfl⟩
  | cons keyword upper ih =>
    cases role : keyword.role == .both with
    | true =>
      obtain ⟨upper', drop⟩ := ih
      exact ⟨upper', fun below => by simp [role, drop]⟩
    | false => exact ⟨keyword :: upper, fun below => by simp [role]⟩

/-- An opener settles the closer, if nothing else waits above it but branches; or the closer still
waits, and all that is below it. -/
lemma settle (seeks : Seeks kind waiting) (kind' : BlockKind) :
    (kind' = kind ∧ ∀ below, KixScript.settle kind' (waiting ++ below) = below) ∨
      ∃ waiting', Seeks kind waiting' ∧
        ∀ below, KixScript.settle kind' (waiting ++ below) = waiting' ++ below := by
  obtain ⟨upper, rfl⟩ := seeks
  obtain ⟨upper', drop⟩ := exists_drop upper kind
  have settled : ∀ below, KixScript.settle kind' (upper ++ [.closer kind] ++ below)
      = if (upper' ++ .closer kind :: below).head? = some (.closer kind')
        then (upper' ++ .closer kind :: below).tail else upper' ++ .closer kind :: below := by
    intro below
    rw [KixScript.settle, List.append_assoc, List.singleton_append, drop]
  cases upper' with
  | nil =>
    by_cases same : kind' = kind
    · subst same
      exact .inl ⟨rfl, fun below => (settled below).trans (if_pos rfl)⟩
    · have other : some (Keyword.closer kind) ≠ some (.closer kind') := by
        intro head
        exact same (Keyword.closer.inj (Option.some.inj head)).symm
      exact .inr ⟨_, single kind, fun below => (settled below).trans (if_neg other)⟩
  | cons keyword rest =>
    right
    by_cases own : some keyword = some (.closer kind')
    · refine ⟨rest ++ [.closer kind], ⟨rest, rfl⟩, fun below => ?_⟩
      rw [List.append_assoc rest]
      exact (settled below).trans (if_pos own)
    · refine ⟨keyword :: rest ++ [.closer kind], ⟨keyword :: rest, rfl⟩, fun below => ?_⟩
      rw [List.append_assoc (keyword :: rest)]
      exact (settled below).trans (if_neg own)

/-- What one step of the search does: it comes to the opener of the closer, and what waits below goes
on before it; or the closer still waits. -/
lemma step (seeks : Seeks kind waiting) (found : Occurrence) :
    (found.keyword = .opener kind ∧ ∀ below earlier,
        findOpener true (waiting ++ below) (found :: earlier)
          = if below = [] then some found else findOpener true below earlier) ∨
      ∃ waiting', Seeks kind waiting' ∧ ∀ below earlier,
        findOpener true (waiting ++ below) (found :: earlier)
          = findOpener true (waiting' ++ below) earlier := by
  cases keyword : found.keyword with
  | closer kind' =>
    exact .inr ⟨_, seeks.cons (.closer kind'), fun below earlier => findOpener_closer keyword⟩
  | branch b =>
    exact .inr ⟨_, seeks.cons (.branch b), fun below earlier =>
      findOpener_branch keyword (seeks.append_ne_nil below)⟩
  | opener kind' =>
    rcases seeks.settle kind' with ⟨rfl, settled⟩ | ⟨waiting', seeks', settled⟩
    · refine .inl ⟨rfl, fun below earlier => ?_⟩
      split
      · rename_i nothing
        exact findOpener_settled keyword ((settled below).trans nothing)
      · rename_i some_below
        have unsettled : KixScript.settle kind' (waiting ++ below) ≠ [] := by
          rw [settled]
          exact some_below
        rw [findOpener_opener keyword (seeks.append_ne_nil below) fun _ => unsettled, settled]
    · refine .inr ⟨waiting', seeks', fun below earlier => ?_⟩
      have unsettled : KixScript.settle kind' (waiting ++ below) ≠ [] := by
        rw [settled]
        exact seeks'.append_ne_nil below
      rw [findOpener_opener keyword (seeks.append_ne_nil below) fun _ => unsettled, settled]

/-- What a run of the search over some keywords does: it comes to the opener of the closer among
them, and what waits below goes on before it; or the closer still waits. -/
lemma run (seeks : Seeks kind waiting) (later : List Occurrence) :
    (∃ between opener rest, later = between ++ opener :: rest ∧ opener.keyword = .opener kind ∧
        ∀ below earlier, findOpener true (waiting ++ below) (later ++ earlier)
          = if below = [] then some opener else findOpener true below (rest ++ earlier)) ∨
      ∃ waiting', Seeks kind waiting' ∧ ∀ below earlier,
        findOpener true (waiting ++ below) (later ++ earlier)
          = findOpener true (waiting' ++ below) earlier := by
  induction later generalizing waiting with
  | nil => exact .inr ⟨waiting, seeks, fun below earlier => rfl⟩
  | cons found later ih =>
    rcases seeks.step found with ⟨opens, ends⟩ | ⟨waiting₁, seeks₁, goes_on⟩
    · exact .inl ⟨[], found, later, rfl, opens, fun below earlier => ends below (later ++ earlier)⟩
    · rcases ih seeks₁ with ⟨between, opener, rest, rfl, opens, ends⟩ | ⟨waiting₂, seeks₂, goes_on'⟩
      · refine .inl ⟨found :: between, opener, rest, rfl, opens, fun below earlier => ?_⟩
        exact (goes_on below _).trans (ends below earlier)
      · refine .inr ⟨waiting₂, seeks₂, fun below earlier => ?_⟩
        exact (goes_on below _).trans (goes_on' below earlier)

end Seeks

/-- What a closer finds, if anything, is an opener of its kind before it. -/
lemma keyword_of_findOpener {kind : BlockKind} {before : List Occurrence} {opener : Occurrence}
    (finds : findOpener true [.closer kind] before = some opener) :
    opener.keyword = .opener kind := by
  rcases (Seeks.single kind).run before with ⟨between, found, rest, _, opens, ends⟩ |
    ⟨waiting, seeks, goes_on⟩
  · have found_here := ends [] []
    rw [List.append_nil, List.append_nil, finds, if_pos rfl] at found_here
    rw [Option.some.inj found_here]
    exact opens
  · have nothing := goes_on [] []
    rw [List.append_nil, List.append_nil, finds] at nothing
    cases nothing

/-- What the later of two closers finds, if anything, stands between them or before the opener that
the earlier one finds. Keywords are listed nearest first. -/
lemma findOpener_around {kind kind' : BlockKind} {between before : List Occurrence}
    {closer opener : Occurrence} (closes : closer.keyword = .closer kind)
    (finds : findOpener true [.closer kind'] (between ++ closer :: before) = some opener) :
    opener ∈ between ∨ ∃ inside inner rest, findOpener true [.closer kind] before = some inner ∧
      before = inside ++ inner :: rest ∧ opener ∈ rest := by
  rcases (Seeks.single kind').run between with ⟨gap, found, rest, rfl, _, ends⟩ |
    ⟨waiting, seeks, goes_on⟩
  · have found_here := ends [] (closer :: before)
    rw [List.append_nil, finds, if_pos rfl] at found_here
    rw [Option.some.inj found_here]
    exact .inl (List.mem_append_right gap List.mem_cons_self)
  · -- The later closer waits below the earlier one from here on.
    have below := goes_on [] (closer :: before)
    rw [List.append_nil, List.append_nil, finds, findOpener_closer closes] at below
    have some_waiting : waiting ≠ [] := by
      have nonempty := seeks.append_ne_nil []
      rwa [List.append_nil] at nonempty
    rcases (Seeks.single kind).run before with ⟨inside, inner, rest, rfl, _, ends⟩ |
      ⟨waiting', _, goes_on'⟩
    · have alone := ends [] []
      have lifted := ends waiting []
      rw [List.append_nil, List.append_nil, if_pos rfl] at alone
      rw [List.append_nil, List.append_nil, if_neg some_waiting] at lifted
      exact .inr ⟨inside, inner, rest, alone, rfl, mem_of_findOpener (below.trans lifted).symm⟩
    · have lifted := goes_on' waiting []
      rw [List.append_nil] at lifted
      cases below.trans lifted

/-- A keyword ends where another one starts, or before. -/
structure Occurrence.Before (found found' : Occurrence) : Prop where
  nonempty : found.start < found.stop
  apart : found.stop ≤ found'.start

/-- A keyword before another starts before it. -/
lemma Occurrence.Before.start_lt {found found' : Occurrence} (order : found.Before found') :
    found.start < found'.start :=
  Nat.lt_of_lt_of_le order.nonempty order.apart

/-- No keyword is spelled by nothing. -/
lemma Keyword.ne_nil_of_ofText? {text : List Char} {keyword : Keyword}
    (spelled : Keyword.ofText? text = some keyword) : text ≠ [] := by
  rintro rfl
  have nothing : Keyword.ofText? [] = none := by decide
  cases nothing.symm.trans spelled

/-- Block keywords stand in order and do not overlap. -/
lemma pairwise_surface (cursor : Cursor) (lexemes : List Lexeme) :
    (surface cursor lexemes).Pairwise Occurrence.Before := by
  rw [surface_eq]
  apply List.Pairwise.filterMap _ _ (pairwise_placed cursor lexemes)
  intro piece piece' order found here found' here'
  obtain ⟨word, same, _, keyword, start, stop⟩ := Piece.onSurface?_eq_some here
  obtain ⟨_, _, _, _, start', _⟩ := Piece.onSurface?_eq_some here'
  rw [Piece.stop, same] at order
  have some_text : 0 < word.length := by
    rw [Cursor.keyword?, Option.ite_none_left_eq_some] at keyword
    exact List.length_pos_iff.2 (Keyword.ne_nil_of_ofText? keyword.2)
  exact ⟨by omega, by rw [stop, start']; exact order⟩

/-- Block keywords are listed in their order. -/
lemma pairwise_blockKeywords (text : List Char) :
    (Script.ofText text).blockKeywords.Pairwise Occurrence.Before :=
  pairwise_surface .start (lexemes text)

/-- An offset on a word of the script that closes a block of this kind, outside of all parentheses. -/
structure Script.ClosesAt (script : Script) (word : Word) (kind : BlockKind) (offset : Int) :
    Prop where
  mem : word ∈ script.scan.words
  outside : word.depth = 0
  noMember : word.member = false
  spelled : Keyword.ofText? word.text = some (.closer kind)
  lower : word.start ≤ offset
  upper : offset < word.stop

section
variable {text : List Char} {word word' : Word} {kind kind' : BlockKind} {offset offset' : Int}

/-- A closing word is one of the block keywords. -/
lemma Script.ClosesAt.mem_blockKeywords (closes : (Script.ofText text).ClosesAt word kind offset) :
    ⟨.closer kind, word.start, word.stop⟩ ∈ (Script.ofText text).blockKeywords := by
  have keyword : word.keyword = some (.closer kind) :=
    (keyword_of_mem_words closes.mem closes.noMember).trans closes.spelled
  refine List.mem_filterMap.2 ⟨word, List.mem_filter.2 ⟨closes.mem, ?_⟩, ?_⟩
  · exact decide_eq_true closes.outside
  · rw [Atom.occurrence?, keyword]
    rfl

/-- From a closing word, the search walks back over the block keywords before it. -/
lemma Script.ClosesAt.matchingOpener {before behind : List Occurrence}
    (closes : (Script.ofText text).ClosesAt word kind offset)
    (split : (Script.ofText text).blockKeywords
      = before ++ ⟨.closer kind, word.start, word.stop⟩ :: behind) :
    (Script.ofText text).matchingOpener offset
      = findOpener true [.closer kind] before.reverse := by
  have at_index : (Script.ofText text).blockKeywords[before.length]?
      = some ⟨.closer kind, word.start, word.stop⟩ := by
    rw [split, List.getElem?_append_right (Nat.le_refl _), Nat.sub_self]
    rfl
  rw [matchingOpener_keyword at_index rfl closes.lower closes.upper, split, List.take_left]

/-- The block keywords before two closing words and between them. -/
lemma Script.ClosesAt.exists_split (closes : (Script.ofText text).ClosesAt word kind offset)
    (closes' : (Script.ofText text).ClosesAt word' kind' offset')
    (order : word.start < word'.start) :
    ∃ before between behind, (Script.ofText text).blockKeywords
      = before ++ ⟨.closer kind, word.start, word.stop⟩ ::
          (between ++ ⟨.closer kind', word'.start, word'.stop⟩ :: behind) := by
  have sorted := pairwise_blockKeywords text
  obtain ⟨before, rest, split⟩ := List.append_of_mem closes.mem_blockKeywords
  rw [split, List.pairwise_append] at sorted
  have mem := closes'.mem_blockKeywords
  rw [split] at mem
  rcases List.mem_append.1 mem with earlier | here
  · have reversed := (sorted.2.2 _ earlier _ List.mem_cons_self).start_lt
    exact absurd reversed (Nat.lt_asymm order)
  rcases List.mem_cons.1 here with same | later
  · have start : word'.start = word.start := congrArg Occurrence.start same
    exact absurd start (Nat.ne_of_gt order)
  · obtain ⟨between, behind, rfl⟩ := List.append_of_mem later
    exact ⟨before, between, behind, split⟩

/-- What a closing word finds is an opener of its kind before it. -/
lemma Script.ClosesAt.opener_before (closes : (Script.ofText text).ClosesAt word kind offset)
    {opener : Occurrence} (finds : (Script.ofText text).matchingOpener offset = some opener) :
    opener.keyword = .opener kind ∧ opener.stop ≤ word.start := by
  have sorted := pairwise_blockKeywords text
  obtain ⟨before, rest, split⟩ := List.append_of_mem closes.mem_blockKeywords
  rw [closes.matchingOpener split] at finds
  rw [split, List.pairwise_append] at sorted
  have mem := List.mem_reverse.1 (mem_of_findOpener finds)
  exact ⟨keyword_of_findOpener finds, (sorted.2.2 _ mem _ List.mem_cons_self).apart⟩

/-- What a later closing word finds stands behind the earlier one, or before what that one finds. -/
lemma Script.ClosesAt.opener_around (closes : (Script.ofText text).ClosesAt word kind offset)
    (closes' : (Script.ofText text).ClosesAt word' kind' offset')
    (order : word.start < word'.start) {opener' : Occurrence}
    (finds' : (Script.ofText text).matchingOpener offset' = some opener') :
    word.stop ≤ opener'.start ∨ ∃ opener,
      (Script.ofText text).matchingOpener offset = some opener ∧ opener'.start < opener.start := by
  have sorted := pairwise_blockKeywords text
  obtain ⟨before, between, behind, split⟩ := closes.exists_split closes' order
  rw [split, List.pairwise_append, List.pairwise_cons] at sorted
  obtain ⟨sorted_before, ⟨closer_before, _⟩, _⟩ := sorted
  have split' := split
  rw [← List.cons_append, ← List.append_assoc] at split'
  rw [closes'.matchingOpener split', List.reverse_append, List.reverse_cons, List.append_assoc,
    List.singleton_append] at finds'
  rcases findOpener_around rfl finds' with mem | ⟨inside, inner, rest, finds, parts, mem⟩
  · left
    exact (closer_before _ (List.mem_append_left _ (List.mem_reverse.1 mem))).apart
  · right
    have nearest_first := List.pairwise_reverse.1 (before.reverse_reverse.symm ▸ sorted_before)
    rw [parts, List.pairwise_append, List.pairwise_cons] at nearest_first
    rw [closes.matchingOpener split]
    exact ⟨inner, finds, (nearest_first.2.1.1 _ mem).start_lt⟩

end

/-- Closers and the openers found for them make pairs that do not cross. What a later closer finds
stands behind the earlier closer, or before the opener of that one. -/
theorem pairs_never_cross (text : List Char) {word : Word} {kind : BlockKind} {offset : Int}
    (closes : (Script.ofText text).ClosesAt word kind offset) :
    (∀ opener, (Script.ofText text).matchingOpener offset = some opener →
      opener.keyword.ownCloser? = some (.closer kind) ∧ opener.stop ≤ word.start) ∧
    ∀ word' kind' offset', (Script.ofText text).ClosesAt word' kind' offset' →
      word.start < word'.start →
      ∀ opener', (Script.ofText text).matchingOpener offset' = some opener' →
        (∀ opener, (Script.ofText text).matchingOpener offset = some opener →
          word.stop ≤ opener'.start ∨ opener'.start < opener.start) ∧
        ((Script.ofText text).matchingOpener offset = none → word.stop ≤ opener'.start) := by
  refine ⟨?_, ?_⟩
  · intro opener finds
    obtain ⟨keyword, before⟩ := closes.opener_before finds
    rw [keyword]
    exact ⟨rfl, before⟩
  · intro word' kind' offset' closes' order opener' finds'
    rcases closes.opener_around closes' order finds' with behind | ⟨inner, finds, before⟩
    · exact ⟨fun _ _ => .inl behind, fun _ => behind⟩
    · rw [finds]
      refine ⟨?_, fun nothing => absurd nothing (Option.some_ne_none inner)⟩
      intro opener same
      obtain rfl := Option.some.inj same
      exact .inr before

/-- Strays of every sort around two blocks, one in the other. -/
def strayText : List Char :=
  "Case Do While Else Loop Until Next".toList

/-- The strays change nothing: both closers find their openers, one pair in the other. -/
theorem pairs_of_strayText :
    (Script.ofText strayText).ClosesAt
      ⟨19, 23, "Loop".toList, 0, false, some (.closer .whileLoop)⟩ .whileLoop 20 ∧
    (Script.ofText strayText).ClosesAt
      ⟨24, 29, "Until".toList, 0, false, some (.closer .doUntil)⟩ .doUntil 25 ∧
    (Script.ofText strayText).matchingOpener 20 = some ⟨.opener .whileLoop, 8, 13⟩ ∧
    (Script.ofText strayText).matchingOpener 25 = some ⟨.opener .doUntil, 5, 7⟩ ∧
    ∀ opener opener', (Script.ofText strayText).matchingOpener 20 = some opener →
      (Script.ofText strayText).matchingOpener 25 = some opener' →
      23 ≤ opener'.start ∨ opener'.start < opener.start := by
  have closes : (Script.ofText strayText).ClosesAt
      ⟨19, 23, "Loop".toList, 0, false, some (.closer .whileLoop)⟩ .whileLoop 20 :=
    ⟨by decide +kernel, rfl, rfl, by decide, by decide, by decide⟩
  have closes' : (Script.ofText strayText).ClosesAt
      ⟨24, 29, "Until".toList, 0, false, some (.closer .doUntil)⟩ .doUntil 25 :=
    ⟨by decide +kernel, rfl, rfl, by decide, by decide, by decide⟩
  refine ⟨closes, closes', by decide +kernel, by decide +kernel, ?_⟩
  intro opener opener' finds finds'
  exact ((pairs_never_cross strayText closes).2 _ _ _ closes' (by decide) _ finds').1 _ finds

end KixScript

import KixScript.Layout
import KixScript.Proofs.Branches

/-!
# Stray closers

The search for the opener of a closer and the search for the innermost block around it walk over the
same keywords, and nothing tells them apart before the second one ends (`findOpener_closer_inner`). So
a closer finds the innermost opener or one before it, and nothing where there is none. A line that
begins with a closer that finds nothing is placed against the innermost opener. Since an opener that
the closer ends would have been found, the two line up only at a branch (`closer_and_innermost_block`).
-/

namespace KixScript

/-- What a search that begins with a closer comes to, and one that begins with nothing. Keywords are
listed nearest first. -/
lemma findOpener_closer_inner (kind : BlockKind) (seen : List Occurrence) :
    (findOpener false [] seen = none ∧ findOpener true [.closer kind] seen = none) ∨
      ∃ later inner earlier, seen = later ++ inner :: earlier ∧
        findOpener false [] seen = some inner ∧
        (inner.keyword = .opener kind → findOpener true [.closer kind] seen = some inner) ∧
        ∀ opener, findOpener true [.closer kind] seen = some opener →
          opener = inner ∨ opener ∈ earlier := by
  rcases Pending.nil.run seen with ⟨later, inner, earlier, split, _, finds, parts⟩ | ⟨nothing, nothing'⟩
  · right
    have here : findOpener true [.closer kind] seen = findOpener true [.closer kind] (inner :: earlier) :=
      parts [.closer kind] (List.cons_ne_nil _ _)
    refine ⟨later, inner, earlier, split, finds, ?_, ?_⟩
    · intro opens
      rw [here]
      exact (owns_opener opens earlier).find (.inl rfl)
    · intro opener found
      rw [here] at found
      exact List.mem_cons.1 (mem_of_findOpener found)
  · exact .inl ⟨nothing, nothing' [.closer kind] (List.cons_ne_nil _ _)⟩

/-- A closer lines up with the keyword of its own block and with the branches that divide it. -/
lemma mem_closers_iff {keyword : Keyword} {kind : BlockKind} :
    .closer kind ∈ keyword.closers ↔
      keyword = .opener kind ∨ ∃ b, keyword = .branch b ∧ b.owner = kind := by
  rcases keyword with kind' | kind' | b
  · cases kind' <;> cases kind <;> simp [Keyword.closers]
  · simp [Keyword.closers]
  · cases b <;> cases kind <;> simp [Keyword.closers, Branch.owner]

/-- A closer is that of the opener of its kind, and of no other keyword. -/
lemma ownCloser?_eq_some_iff {keyword : Keyword} {kind : BlockKind} :
    keyword.ownCloser? = some (.closer kind) ↔ keyword = .opener kind := by
  rcases keyword with kind' | kind' | b <;> simp [Keyword.ownCloser?]

section
variable {text : List Char} {word : Word} {kind : BlockKind}

/-- What is met later on the way back starts before what is met first. -/
lemma start_lt_of_keywordsBack {before behind : List Atom} {later earlier : List Occurrence}
    {inner opener : Occurrence} (split : (Script.ofText text).scan.atoms = before ++ behind)
    (met : keywordsBack before = later ++ inner :: earlier) (mem : opener ∈ earlier) :
    opener.start < inner.start := by
  obtain ⟨front, atom, back, rfl, is_inner, rfl⟩ := keywordsBack_resume met
  rw [List.append_assoc, List.cons_append] at split
  have apart := stop_le_of_mem_keywordsBack split mem
  obtain ⟨nearer, farther, met'⟩ := List.append_of_mem mem
  obtain ⟨front', atom', back', rfl, is_opener, _⟩ := keywordsBack_resume met'
  have nonempty : atom'.start < atom'.stop := by
    apply start_lt_stop_of_mem
    rw [split]
    exact List.mem_append_left _ (List.mem_append_right _ List.mem_cons_self)
  obtain ⟨start, stop⟩ := Atom.span_of_occurrence? is_opener
  rw [(Atom.span_of_occurrence? is_inner).1]
  omega

/-- A line that begins with a closer is placed against what the closer finds; if it finds nothing,
against the innermost block. -/
lemma alignment_closer (stands : (Script.ofText text).StandsOn word (.closer kind) word.start) :
    (Script.ofText text).alignment word.start
      = (((Script.ofText text).matchingOpener word.start).map fun opener => (opener, 0)).or
          (((Script.ofText text).enclosingOpener word.start).map fun opener =>
            (opener, if opener.keyword.closers.contains (.closer kind) then 0 else 1)) := by
  obtain ⟨before, behind, split⟩ := List.append_of_mem (word_mem_atoms.2 stands.mem)
  have here : (Script.ofText text).keywordAt word.start = some ⟨.closer kind, word.start, word.stop⟩ :=
    (keywordAt_atom split stands.lower stands.upper).trans stands.occurrence?
  have leads : (decide (word.start = word.start) && (Keyword.closer kind).closes) = true := by
    rw [decide_eq_true rfl]
    rfl
  rw [Script.alignment, here]
  dsimp only
  rw [if_pos leads]
  cases (Script.ofText text).matchingOpener word.start with
  | none => rfl
  | some opener => rfl

end

/-- What a closer finds is the innermost opener or stands before it, and is that opener if the closer
ends its block. A closer that finds nothing is placed against the innermost opener. -/
theorem closer_and_innermost_block (text : List Char) {word : Word} {kind : BlockKind}
    (mem : word ∈ (Script.ofText text).scan.words) (noMember : word.member = false)
    (spelled : Keyword.ofText? word.text = some (.closer kind)) :
    ((Script.ofText text).enclosingOpener word.start = none →
      (Script.ofText text).matchingOpener word.start = none) ∧
    (∀ opener, (Script.ofText text).matchingOpener word.start = some opener →
      ∃ inner, (Script.ofText text).enclosingOpener word.start = some inner ∧
        opener.start ≤ inner.start) ∧
    (∀ inner, (Script.ofText text).enclosingOpener word.start = some inner →
      inner.keyword.ownCloser? = some (.closer kind) →
      (Script.ofText text).matchingOpener word.start = some inner) ∧
    ∀ opener levels, (Script.ofText text).matchingOpener word.start = none →
      (Script.ofText text).alignment word.start = some (opener, levels) →
      (Script.ofText text).enclosingOpener word.start = some opener ∧ levels ≤ 1 ∧
        (levels = 0 ↔ ∃ b, opener.keyword = .branch b ∧ b.owner = kind) := by
  obtain ⟨before, behind, split⟩ := List.append_of_mem (word_mem_atoms.2 mem)
  obtain ⟨_, some_text, _⟩ := starts_around split
  have stands : (Script.ofText text).StandsOn word (.closer kind) word.start :=
    ⟨mem, noMember, spelled, Int.le_refl _, Int.ofNat_lt.2 some_text⟩
  have aligned := alignment_closer stands
  have matching : (Script.ofText text).matchingOpener word.start
      = findOpener true [.closer kind] (keywordsBack before) :=
    matchingOpener_atom split stands.occurrence? rfl stands.lower stands.upper
  rw [aligned, stands.enclosingOpener split, matching]
  rcases findOpener_closer_inner kind (keywordsBack before) with
    ⟨nothing, nothing'⟩ | ⟨later, inner, earlier, met, around, own, found⟩
  · rw [nothing, nothing']
    exact ⟨fun _ => rfl, nofun, nofun, fun _ _ _ placed => nomatch placed⟩
  rw [around]
  refine ⟨nofun, ?_, ?_, ?_⟩
  · intro opener finds
    refine ⟨inner, rfl, ?_⟩
    rcases found opener finds with rfl | mem
    · exact Nat.le_refl _
    · exact Nat.le_of_lt (start_lt_of_keywordsBack split met mem)
  · intro inner' same closes
    obtain rfl := Option.some.inj same
    exact own (ownCloser?_eq_some_iff.1 closes)
  · intro opener levels unmatched placed
    have no_opener : inner.keyword ≠ .opener kind := by
      intro opens
      rw [own opens] at unmatched
      cases unmatched
    have lines_up : inner.keyword.closers.contains (.closer kind) = true
        ↔ ∃ b, inner.keyword = .branch b ∧ b.owner = kind := by
      rw [List.contains_iff_mem, mem_closers_iff, or_iff_right no_opener]
    rw [unmatched, Option.map_none, Option.none_or, Option.map_some, Option.some.injEq,
      Prod.mk.injEq] at placed
    obtain ⟨rfl, rfl⟩ := placed
    refine ⟨rfl, ?_, ?_⟩
    · split
      · exact Nat.zero_le 1
      · exact Nat.le_refl 1
    · rw [← lines_up]
      split
      · rename_i here
        exact iff_of_true rfl here
      · rename_i apart
        exact iff_of_false Nat.one_ne_zero apart

/-- An `EndIf` that no `If` opens, and one with an unfinished block before it. -/
def unopenedText : List Char :=
  "Else EndIf\nIf Do EndIf".toList

/-- The first `EndIf` finds nothing and lines up with the `Else`. The second one finds the `If`, which
stands before the innermost opener. -/
theorem closers_of_unopenedText :
    ⟨5, 10, "EndIf".toList, 0, false, some (.closer .conditional)⟩
      ∈ (Script.ofText unopenedText).scan.words ∧
    (Script.ofText unopenedText).matchingOpener 5 = none ∧
    (Script.ofText unopenedText).alignment 5 = some (⟨.branch .elseBranch, 0, 4⟩, 0) ∧
    (Script.ofText unopenedText).enclosingOpener 5 = some ⟨.branch .elseBranch, 0, 4⟩ ∧
    ⟨17, 22, "EndIf".toList, 0, false, some (.closer .conditional)⟩
      ∈ (Script.ofText unopenedText).scan.words ∧
    (Script.ofText unopenedText).matchingOpener 17 = some ⟨.opener .conditional, 11, 13⟩ ∧
    ∃ inner, (Script.ofText unopenedText).enclosingOpener 17 = some inner ∧ 11 ≤ inner.start := by
  have first : ⟨5, 10, "EndIf".toList, 0, false, some (.closer .conditional)⟩
      ∈ (Script.ofText unopenedText).scan.words := by
    decide +kernel
  have second : ⟨17, 22, "EndIf".toList, 0, false, some (.closer .conditional)⟩
      ∈ (Script.ofText unopenedText).scan.words := by
    decide +kernel
  have unmatched : (Script.ofText unopenedText).matchingOpener 5 = none := by
    decide +kernel
  have placed : (Script.ofText unopenedText).alignment 5 = some (⟨.branch .elseBranch, 0, 4⟩, 0) := by
    decide +kernel
  have finds : (Script.ofText unopenedText).matchingOpener 17
      = some ⟨.opener .conditional, 11, 13⟩ := by
    decide +kernel
  have spelled : Keyword.ofText? "EndIf".toList = some (.closer .conditional) := by
    decide
  obtain ⟨_, _, _, fallback⟩ := closer_and_innermost_block unopenedText first rfl spelled
  obtain ⟨_, before, _⟩ := closer_and_innermost_block unopenedText second rfl spelled
  exact ⟨first, unmatched, placed, (fallback _ _ unmatched placed).1, second, finds, before _ finds⟩

end KixScript

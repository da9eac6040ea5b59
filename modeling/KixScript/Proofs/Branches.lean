import KixScript.Proofs.Atoms
import KixScript.Proofs.Pairing

/-!
# What branches belong to

A search that nothing is given to and one that begins with some keywords walk alike over the same
keywords, as long as a closer waits in the first one (`Pending.step`). They part where nothing waits
any more, at the keyword that the first one finds (`Pending.run`). If the second one began with a
branch, it ends there too, unless it has come to another branch. So a branch belongs to the innermost
block around it, whatever its kind: an `Else` may find a `Do` (`branch_finds_innermost_block`).
-/

namespace KixScript

/-- Nothing waits, or a closer does, below all others. -/
def Pending (waiting : List Keyword) : Prop :=
  waiting = [] ∨ ∃ kind, Seeks kind waiting

namespace Pending
variable {waiting : List Keyword}

/-- It may be that nothing waits. -/
lemma nil : Pending [] :=
  .inl rfl

/-- A closer may wait below all others. -/
lemma of_seeks {kind : BlockKind} (seeks : Seeks kind waiting) : Pending waiting :=
  .inr ⟨kind, seeks⟩

/-- What one step does: where nothing waits, it may come to a keyword that begins something; or it
goes on, with or without other keywords that wait below. -/
lemma step (pending : Pending waiting) (found : Occurrence) :
    (waiting = [] ∧ found.keyword.opens = true) ∨
      ∃ waiting', Pending waiting' ∧ ∀ earlier,
        findOpener false waiting (found :: earlier) = findOpener false waiting' earlier ∧
        ∀ below ≠ [], findOpener true (waiting ++ below) (found :: earlier)
          = findOpener true (waiting' ++ below) earlier := by
  rcases pending with rfl | ⟨kind, seeks⟩
  · cases keyword : found.keyword with
    | opener kind => exact .inl ⟨rfl, rfl⟩
    | branch b => exact .inl ⟨rfl, rfl⟩
    | closer kind =>
      exact .inr ⟨_, of_seeks (.single kind), fun earlier =>
        ⟨findOpener_closer keyword, fun below _ => findOpener_closer keyword⟩⟩
  · right
    have waits := seeks.append_ne_nil []
    rw [List.append_nil] at waits
    cases keyword : found.keyword with
    | closer kind' =>
      exact ⟨_, of_seeks (seeks.cons (.closer kind')), fun earlier =>
        ⟨findOpener_closer keyword, fun below _ => findOpener_closer keyword⟩⟩
    | branch b =>
      exact ⟨_, of_seeks (seeks.cons (.branch b)), fun earlier =>
        ⟨findOpener_branch keyword waits,
          fun below _ => findOpener_branch keyword (seeks.append_ne_nil below)⟩⟩
    | opener kind' =>
      obtain ⟨waiting', pending', settled⟩ : ∃ waiting', Pending waiting' ∧
          ∀ below, settle kind' (waiting ++ below) = waiting' ++ below := by
        rcases seeks.settle kind' with ⟨_, settled⟩ | ⟨waiting', seeks', settled⟩
        · exact ⟨[], nil, settled⟩
        · exact ⟨waiting', of_seeks seeks', settled⟩
      have alone := settled []
      rw [List.append_nil, List.append_nil] at alone
      refine ⟨waiting', pending', fun earlier => ⟨?_, fun below some_below => ?_⟩⟩
      · rw [findOpener_opener keyword waits fun seeded => absurd seeded Bool.false_ne_true, alone]
      · have unsettled : settle kind' (waiting ++ below) ≠ [] := by
          rw [settled]
          simp [some_below]
        rw [findOpener_opener keyword (seeks.append_ne_nil below) fun _ => unsettled, settled]

/-- What a run over some keywords does: it comes to a keyword where nothing waits any more, and what
waits below goes on from there; or it comes to nothing. -/
lemma run (pending : Pending waiting) (seen : List Occurrence) :
    (∃ later found earlier, seen = later ++ found :: earlier ∧ found.keyword.opens = true ∧
        findOpener false waiting seen = some found ∧
        ∀ below ≠ [], findOpener true (waiting ++ below) seen
          = findOpener true below (found :: earlier)) ∨
      findOpener false waiting seen = none ∧
        ∀ below ≠ [], findOpener true (waiting ++ below) seen = none := by
  induction seen generalizing waiting with
  | nil => exact .inr ⟨rfl, fun _ _ => rfl⟩
  | cons found seen ih =>
    rcases pending.step found with ⟨rfl, opens⟩ | ⟨waiting', pending', goes_on⟩
    · have found_here : findOpener false [] (found :: seen) = some found := by
        cases keyword : found.keyword with
        | opener kind => exact findOpener_opener_nil keyword
        | branch b => exact findOpener_branch_nil keyword
        | closer kind =>
          rw [keyword] at opens
          cases opens
      exact .inl ⟨[], found, seen, rfl, opens, found_here, fun below _ => rfl⟩
    · obtain ⟨alone, above⟩ := goes_on seen
      rw [alone]
      rcases ih pending' with ⟨later, next, earlier, rfl, opens, finds, parts⟩ | ⟨nothing, nothing'⟩
      · refine .inl ⟨found :: later, next, earlier, rfl, opens, finds, fun below some_below => ?_⟩
        rw [above below some_below, parts below some_below]
      · refine .inr ⟨nothing, fun below some_below => ?_⟩
        rw [above below some_below, nothing' below some_below]

end Pending

/-- It makes no difference which branches a search begins with. What it comes to is an opener. -/
lemma findOpener_branches {below below' : List Keyword}
    (both : ∀ keyword ∈ below, keyword.role = .both)
    (both' : ∀ keyword ∈ below', keyword.role = .both) (some_below : below ≠ [])
    (some_below' : below' ≠ []) (seen : List Occurrence) :
    findOpener true below seen = findOpener true below' seen ∧
      ∀ opener, findOpener true below seen = some opener → ∃ kind, opener.keyword = .opener kind := by
  rcases Pending.nil.run seen with ⟨later, found, earlier, split, opens, _, parts⟩ | ⟨_, nothing⟩
  · have shorter : earlier.length < seen.length := by
      rw [split, List.length_append, List.length_cons]
      omega
    have here : findOpener true below seen = _ := parts below some_below
    have here' : findOpener true below' seen = _ := parts below' some_below'
    rw [here, here']
    cases keyword : found.keyword with
    | opener kind =>
      rw [findOpener_settled keyword (settle_branches both),
        findOpener_settled keyword (settle_branches both')]
      refine ⟨rfl, fun opener same => ⟨kind, ?_⟩⟩
      rw [← Option.some.inj same]
      exact keyword
    | branch b =>
      -- The branch joins those that wait, and the search goes on before it.
      rw [findOpener_branch keyword some_below, findOpener_branch keyword some_below']
      exact findOpener_branches (List.forall_mem_cons.2 ⟨rfl, both⟩)
        (List.forall_mem_cons.2 ⟨rfl, both'⟩) (List.cons_ne_nil _ _) (List.cons_ne_nil _ _) earlier
    | closer kind =>
      rw [keyword] at opens
      cases opens
  · have here : findOpener true below seen = none := nothing below some_below
    have here' : findOpener true below' seen = none := nothing below' some_below'
    rw [here, here']
    exact ⟨rfl, nofun⟩
termination_by seen.length

/-- An offset on a word of the script that spells a keyword and is no member of an object. -/
structure Script.StandsOn (script : Script) (word : Word) (keyword : Keyword) (offset : Int) :
    Prop where
  mem : word ∈ script.scan.words
  noMember : word.member = false
  spelled : Keyword.ofText? word.text = some keyword
  lower : word.start ≤ offset
  upper : offset < word.stop

section
variable {text : List Char} {word : Word} {keyword : Keyword} {offset : Int}
  {before behind : List Atom}

/-- The word that an offset stands on is the keyword. -/
lemma Script.StandsOn.occurrence? (stands : (Script.ofText text).StandsOn word keyword offset) :
    (Atom.word word).occurrence? = some ⟨keyword, word.start, word.stop⟩ := by
  rw [Atom.occurrence?, keyword_of_mem_words stands.mem stands.noMember, stands.spelled]
  rfl

/-- The search for the block around a word walks over what is before the word. -/
lemma Script.StandsOn.enclosingOpener (stands : (Script.ofText text).StandsOn word keyword offset)
    (split : (Script.ofText text).scan.atoms = before ++ .word word :: behind) :
    (Script.ofText text).enclosingOpener word.start
      = findOpener false [] (keywordsBack before) := by
  obtain ⟨piece, mem, is_word⟩ := List.mem_filterMap.1 stands.mem
  obtain ⟨front, back, joint, place⟩ := exists_of_mem_placed mem
  have start : word.start = (written front).length := by
    rw [← Cursor.start_after_offset, ← place]
    exact (Piece.span_of_atom? (Piece.atom?_eq_word.2 is_word)).1
  have closed := (lexemes_eq_iff.1 joint).1.allClosed (List.cons_ne_nil _ _)
  have back : (Script.ofText text).atomsBefore word.start = before := atomsBefore_atom split
  rw [Script.enclosingOpener, start, contextAt_joint joint closed, ← start, ← back]
  rfl

end

/-- A branch finds the opener of the innermost block around it, of whatever kind the block is. Where
the innermost keyword around it is another branch, both find the same. -/
theorem branch_finds_innermost_block (text : List Char) {word : Word} {b : Branch} {offset : Int}
    (divides : (Script.ofText text).StandsOn word (.branch b) offset) :
    (Script.ofText text).matchingOpener offset
      = (((Script.ofText text).enclosingOpener word.start).bind fun found =>
          if found.keyword.closes then (Script.ofText text).matchingOpener found.start
          else some found) ∧
    ∀ opener, (Script.ofText text).matchingOpener offset = some opener →
      (∃ kind, opener.keyword = .opener kind) ∧ opener.stop ≤ word.start := by
  have both : ∀ b, ∀ keyword ∈ [Keyword.branch b], keyword.role = .both := by
    intro b keyword mem
    rw [List.mem_singleton.1 mem]
    rfl
  obtain ⟨before, behind, split⟩ := List.append_of_mem (word_mem_atoms.2 divides.mem)
  rw [matchingOpener_atom split divides.occurrence? rfl divides.lower divides.upper,
    divides.enclosingOpener split]
  refine ⟨?_, fun opener finds => ⟨?_, ?_⟩⟩
  · rcases Pending.nil.run (keywordsBack before) with
      ⟨later, found, earlier, met, opens, finds, parts⟩ | ⟨nothing, nothing'⟩
    · have here : findOpener true [.branch b] (keywordsBack before) = _ :=
        parts [.branch b] (List.cons_ne_nil _ _)
      rw [finds, here, Option.bind_some]
      cases keyword : found.keyword with
      | opener kind => exact findOpener_settled keyword (settle_branches (both b))
      | branch b' =>
        -- The other branch begins a search of its own over the keywords that are left.
        obtain ⟨before', atom, between, rfl, is_keyword, rfl⟩ := keywordsBack_resume met
        rw [List.append_assoc, List.cons_append] at split
        obtain ⟨start, _⟩ := Atom.span_of_occurrence? is_keyword
        obtain ⟨_, some_text, _⟩ := starts_around split
        have closes : (Keyword.branch b').closes = true := rfl
        have other := matchingOpener_atom split is_keyword (keyword ▸ closes)
          (Int.ofNat_le.2 (Nat.le_of_eq start.symm)) (Int.ofNat_lt.2 (start ▸ some_text))
        rw [findOpener_branch keyword (List.cons_ne_nil _ _), if_pos closes, other, keyword]
        exact (findOpener_branches (List.forall_mem_cons.2 ⟨rfl, both b⟩) (both b')
          (List.cons_ne_nil _ _) (List.cons_ne_nil _ _) _).1
      | closer kind =>
        rw [keyword] at opens
        cases opens
    · rw [nothing]
      exact nothing' [.branch b] (List.cons_ne_nil _ _)
  · exact (findOpener_branches (both b) (both b) (List.cons_ne_nil _ _) (List.cons_ne_nil _ _) _).2
      opener finds
  · exact stop_le_of_mem_keywordsBack split (mem_of_findOpener finds)

/-- Branches where no `If` and no `Select` stands. -/
def dividedLoop : List Char :=
  "Do\nElse\nCase".toList

/-- Both branches belong to the `Do`. -/
theorem branches_of_dividedLoop :
    (Script.ofText dividedLoop).StandsOn
      ⟨3, 7, "Else".toList, 0, false, some (.branch .elseBranch)⟩ (.branch .elseBranch) 3 ∧
    (Script.ofText dividedLoop).StandsOn
      ⟨8, 12, "Case".toList, 0, false, some (.branch .caseBranch)⟩ (.branch .caseBranch) 9 ∧
    (Script.ofText dividedLoop).enclosingOpener 8 = some ⟨.branch .elseBranch, 3, 7⟩ ∧
    (Script.ofText dividedLoop).enclosingOpener 3 = some ⟨.opener .doUntil, 0, 2⟩ ∧
    (Script.ofText dividedLoop).matchingOpener 3 = some ⟨.opener .doUntil, 0, 2⟩ ∧
    (Script.ofText dividedLoop).matchingOpener 9 = some ⟨.opener .doUntil, 0, 2⟩ := by
  have on_else : (Script.ofText dividedLoop).StandsOn
      ⟨3, 7, "Else".toList, 0, false, some (.branch .elseBranch)⟩ (.branch .elseBranch) 3 :=
    ⟨by decide +kernel, rfl, by decide, by decide, by decide⟩
  have on_case : (Script.ofText dividedLoop).StandsOn
      ⟨8, 12, "Case".toList, 0, false, some (.branch .caseBranch)⟩ (.branch .caseBranch) 9 :=
    ⟨by decide +kernel, rfl, by decide, by decide, by decide⟩
  have around_else : (Script.ofText dividedLoop).enclosingOpener 3 = some ⟨.opener .doUntil, 0, 2⟩ := by
    decide +kernel
  have around_case :
      (Script.ofText dividedLoop).enclosingOpener 8 = some ⟨.branch .elseBranch, 3, 7⟩ := by
    decide +kernel
  have of_else : (Script.ofText dividedLoop).matchingOpener 3 = some ⟨.opener .doUntil, 0, 2⟩ :=
    (branch_finds_innermost_block dividedLoop on_else).1.trans
      (congrArg (fun around => Option.bind around _) around_else)
  have of_case : (Script.ofText dividedLoop).matchingOpener 9 = some ⟨.opener .doUntil, 0, 2⟩ :=
    (branch_finds_innermost_block dividedLoop on_case).1.trans
      ((congrArg (fun around => Option.bind around _) around_case).trans of_else)
  exact ⟨on_else, on_case, around_case, around_else, of_else, of_case⟩

end KixScript

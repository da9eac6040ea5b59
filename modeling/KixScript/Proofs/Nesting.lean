import KixScript.Block
import Mathlib.Data.List.TakeWhile
import Mathlib.Tactic.Common

/-!
# Well-nested keywords

Nests are the trees of the block structure: a block holds a nest up to its closer, and branches may
divide it. A search for an opener, walking back over the keywords of a nest, takes no notice of the
blocks that are complete in it (`findOpener_nest`). So it comes to what is known before the nest, and
this is carried along from the head of a block to its branches and its closer (`Owns`).
-/

namespace KixScript

/-- The branch that can divide a block. -/
def BlockKind.branch? : BlockKind → Option Branch
  | .conditional => some .elseBranch
  | .select => some .caseBranch
  | _ => none

/-- The branch that can still come after another one: there is one `Else`, and any number of
`Case`. -/
def Branch.next? : Branch → Option Branch
  | .elseBranch => none
  | .caseBranch => some .caseBranch

/-- What stands in a block up to its closer, or in a whole program. The index is the branch that may
come next. `α` holds what is not part of the block structure, and `β` what comes with a keyword. -/
inductive Nest (α : Type) (β : Keyword → Type) : Option Branch → Type where
  | done {next} : Nest α β next
  | leaf {next} (plain : α) (rest : Nest α β next) : Nest α β next
  | block {next} (kind : BlockKind) (head : β (.opener kind)) (inner : Nest α β kind.branch?)
    (close : β (.closer kind)) (rest : Nest α β next) : Nest α β next
  | branch (b : Branch) (mark : β (.branch b)) (rest : Nest α β b.next?) : Nest α β (some b)

namespace Nest
variable {α : Type} {β : Keyword → Type}

/-- The keywords of a nest, in order. -/
def keywords : {next : Option Branch} → Nest α β next → List Keyword
  | _, done => []
  | _, leaf _ rest => rest.keywords
  | _, block kind _ inner _ rest =>
    .opener kind :: (inner.keywords ++ .closer kind :: rest.keywords)
  | _, branch b _ rest => .branch b :: rest.keywords

/-- The branches that divide the block which holds the nest. -/
def branches : {next : Option Branch} → Nest α β next → List Keyword
  | _, done => []
  | _, leaf _ rest => rest.branches
  | _, block _ _ _ _ rest => rest.branches
  | _, branch b _ rest => .branch b :: rest.branches

/-- The branches of a nest close one part of a block and open the next. -/
lemma role_of_mem_branches {next : Option Branch} {nest : Nest α β next} {keyword : Keyword}
    (mem : keyword ∈ nest.branches) : keyword.role = .both := by
  induction nest with
  | done => cases mem
  | leaf _ rest ih => exact ih mem
  | block _ _ _ _ rest _ ih => exact ih mem
  | branch b _ rest ih =>
    rw [branches] at mem
    rcases List.mem_cons.1 mem with rfl | mem
    · rfl
    · exact ih mem

end Nest

section
variable {seeded : Bool} {waiting : List Keyword} {found : Occurrence} {earlier : List Occurrence}

/-- A closer has to be matched before the search goes on. -/
lemma findOpener_closer {kind : BlockKind} (closes : found.keyword = .closer kind) :
    findOpener seeded waiting (found :: earlier)
      = findOpener seeded (.closer kind :: waiting) earlier := by
  rw [findOpener]
  simp only [closes]

/-- A branch waits like a closer if something waits already. -/
lemma findOpener_branch {b : Branch} (divides : found.keyword = .branch b)
    (some_waiting : waiting ≠ []) :
    findOpener seeded waiting (found :: earlier)
      = findOpener seeded (.branch b :: waiting) earlier := by
  rw [findOpener]
  simp [divides, some_waiting]

/-- A branch is found if nothing waits. -/
lemma findOpener_branch_nil {b : Branch} (divides : found.keyword = .branch b) :
    findOpener seeded [] (found :: earlier) = some found := by
  rw [findOpener]
  simp [divides]

/-- An opener is found if nothing waits. -/
lemma findOpener_opener_nil {kind : BlockKind} (opens : found.keyword = .opener kind) :
    findOpener seeded [] (found :: earlier) = some found := by
  rw [findOpener]
  simp [opens]

/-- An opener settles what waits for it, and the search goes on. -/
lemma findOpener_opener {kind : BlockKind} (opens : found.keyword = .opener kind)
    (some_waiting : waiting ≠ []) (unsettled : seeded = true → settle kind waiting ≠ []) :
    findOpener seeded waiting (found :: earlier)
      = findOpener seeded (settle kind waiting) earlier := by
  rw [findOpener]
  cases seeded with
  | false => simp [opens, some_waiting]
  | true => simp [opens, some_waiting, unsettled rfl]

/-- The opener that settles all that waits is the one looked for. -/
lemma findOpener_settled {kind : BlockKind} (opens : found.keyword = .opener kind)
    (settled : settle kind waiting = []) : findOpener true waiting (found :: earlier) = some found := by
  rw [findOpener]
  simp [opens, settled]

/-- What is found has been seen. -/
lemma mem_of_findOpener {seen : List Occurrence} {opener : Occurrence}
    (finds : findOpener seeded waiting seen = some opener) : opener ∈ seen := by
  induction seen generalizing waiting with
  | nil => cases finds
  | cons found earlier ih =>
    rw [findOpener] at finds
    cases keyword : found.keyword with
    | closer kind =>
      rw [keyword] at finds
      exact List.mem_cons_of_mem _ (ih finds)
    | branch b =>
      rw [keyword] at finds
      dsimp only at finds
      split at finds
      · exact Option.some.inj finds ▸ List.mem_cons_self
      · exact List.mem_cons_of_mem _ (ih finds)
    | opener kind =>
      rw [keyword] at finds
      dsimp only at finds
      split at finds
      · exact Option.some.inj finds ▸ List.mem_cons_self
      split at finds
      · exact Option.some.inj finds ▸ List.mem_cons_self
      · exact List.mem_cons_of_mem _ (ih finds)

/-- The search looks at nothing but what the keywords are: wherever they look the same, it comes to
what looks the same. -/
lemma findOpener_views {α : Type} {view view' : Occurrence → α} {seen seen' : List Occurrence}
    (same : seen.map view = seen'.map view') (keyword : α → Keyword)
    (reads : ∀ found, keyword (view found) = found.keyword)
    (reads' : ∀ found, keyword (view' found) = found.keyword) (seeded : Bool)
    (waiting : List Keyword) :
    (findOpener seeded waiting seen).map view = (findOpener seeded waiting seen').map view' := by
  induction seen generalizing seen' waiting with
  | nil =>
    obtain rfl := List.map_eq_nil_iff.1 same.symm
    rfl
  | cons found earlier ih =>
    obtain ⟨found', earlier', rfl, here, same⟩ := List.map_eq_cons_iff.1 same.symm
    have keywords : found'.keyword = found.keyword := by rw [← reads' found', here, reads]
    rw [findOpener, findOpener, keywords]
    cases found.keyword with
    | closer kind => exact ih same.symm _
    | branch b =>
      dsimp only
      split
      · exact congrArg some here.symm
      · exact ih same.symm _
    | opener kind =>
      dsimp only
      split
      · exact congrArg some here.symm
      split
      · exact congrArg some here.symm
      · exact ih same.symm _

end

/-- An opener drops the branches on top, and then its own closer. -/
lemma settle_closer {kind : BlockKind} {branches : List Keyword}
    (both : ∀ keyword ∈ branches, keyword.role = .both) (waiting : List Keyword) :
    settle kind (branches ++ .closer kind :: waiting) = waiting := by
  have drop : (branches ++ .closer kind :: waiting).dropWhile (fun keyword => keyword.role == .both)
      = .closer kind :: waiting := by
    rw [List.dropWhile_append_of_pos (by simpa using both)]
    rfl
  rw [settle, drop]
  simp

/-- Branches that wait are all settled by an opener. -/
lemma settle_branches {kind : BlockKind} {branches : List Keyword}
    (both : ∀ keyword ∈ branches, keyword.role = .both) : settle kind branches = [] := by
  have drop : branches.dropWhile (fun keyword => keyword.role == .both) = [] := by
    rw [List.dropWhile_eq_nil_iff]
    simpa using both
  rw [settle, drop]
  simp

section
variable {α : Type} {β : Keyword → Type} {next : Option Branch} {seeded : Bool}

/-- The keywords of a block are those of its head, its inside and its closer. -/
lemma Nest.exists_of_block {kind : BlockKind} {inner : Nest α β kind.branch?} {rest : Nest α β next}
    {occurrences : List Occurrence}
    (spelled : occurrences.map Occurrence.keyword
      = .opener kind :: (inner.keywords ++ .closer kind :: rest.keywords)) :
    ∃ head inside close behind, occurrences = head :: (inside ++ close :: behind) ∧
      head.keyword = .opener kind ∧ inside.map Occurrence.keyword = inner.keywords ∧
      close.keyword = .closer kind ∧ behind.map Occurrence.keyword = rest.keywords := by
  obtain ⟨head, more, rfl, opens, spelled⟩ := List.map_eq_cons_iff.1 spelled
  obtain ⟨inside, more, rfl, inside_spelled, spelled⟩ := List.map_eq_append_iff.1 spelled
  obtain ⟨close, behind, rfl, closes, behind_spelled⟩ := List.map_eq_cons_iff.1 spelled
  exact ⟨head, inside, close, behind, rfl, opens, inside_spelled, closes, behind_spelled⟩

/-- While something waits, a search walks over a nest and only gathers the branches of the block that
holds it: each block inside settles its own closer and branches. -/
lemma findOpener_nest {nest : Nest α β next} {occurrences : List Occurrence}
    (spelled : occurrences.map Occurrence.keyword = nest.keywords) {waiting : List Keyword}
    (some_waiting : waiting ≠ []) (earlier : List Occurrence) :
    findOpener seeded waiting (occurrences.reverse ++ earlier)
      = findOpener seeded (nest.branches ++ waiting) earlier := by
  induction nest generalizing occurrences waiting earlier with
  | done =>
    obtain rfl := List.map_eq_nil_iff.1 spelled
    rfl
  | leaf _ rest ih => exact ih spelled some_waiting earlier
  | block kind _ inner _ rest ih_inner ih_rest =>
    obtain ⟨head, inside, close, behind, rfl, opens, inside_spelled, closes, behind_spelled⟩ :=
      Nest.exists_of_block spelled
    -- The closer waits while its block is walked over, and the head settles it with the branches.
    have waits : rest.branches ++ waiting ≠ [] := by simp [some_waiting]
    rw [List.reverse_cons, List.reverse_append, List.reverse_cons, List.append_assoc,
      List.append_assoc, List.append_assoc, List.singleton_append,
      ih_rest behind_spelled some_waiting, List.singleton_append, findOpener_closer closes,
      ih_inner inside_spelled (List.cons_ne_nil _ _), findOpener_opener opens (by simp),
      settle_closer fun _ mem => Nest.role_of_mem_branches mem]
    · rfl
    · rw [settle_closer fun _ mem => Nest.role_of_mem_branches mem]
      exact fun _ => waits
  | branch b _ rest ih =>
    obtain ⟨mark, behind, rfl, divides, behind_spelled⟩ := List.map_eq_cons_iff.1 spelled
    rw [List.reverse_cons, List.append_assoc, ih behind_spelled some_waiting, List.singleton_append,
      findOpener_branch divides (by simp [some_waiting])]
    rfl

/-- A complete block is walked over, whatever waits. -/
lemma findOpener_block {kind : BlockKind} {inner : Nest α β next} {head close : Occurrence}
    {inside : List Occurrence} (opens : head.keyword = .opener kind)
    (spelled : inside.map Occurrence.keyword = inner.keywords) (closes : close.keyword = .closer kind)
    {waiting : List Keyword} (waits : seeded = true → waiting ≠ []) (earlier : List Occurrence) :
    findOpener seeded waiting (close :: (inside.reverse ++ head :: earlier))
      = findOpener seeded waiting earlier := by
  rw [findOpener_closer closes, findOpener_nest spelled (List.cons_ne_nil _ _),
    findOpener_opener opens (by simp), settle_closer fun _ mem => Nest.role_of_mem_branches mem]
  rw [settle_closer fun _ mem => Nest.role_of_mem_branches mem]
  exact waits

end

/-- The keywords before a place have an open block of this kind, and the search for the owner of its
closer or of any branch, past the branches already met, ends at its opener. -/
def Owns (kind : BlockKind) (opener : Occurrence) (earlier : List Occurrence) : Prop :=
  ∀ branches keyword, (∀ branch ∈ branches, Keyword.role branch = .both) →
    (keyword = .closer kind ∨ keyword.role = .both) →
    findOpener true (branches ++ [keyword]) earlier = some opener

/-- An opener owns what comes directly behind it. -/
lemma owns_opener {kind : BlockKind} {opener : Occurrence} (opens : opener.keyword = .opener kind)
    (earlier : List Occurrence) : Owns kind opener (opener :: earlier) := by
  intro branches keyword both owned
  apply findOpener_settled opens
  rcases owned with rfl | branch
  · exact settle_closer both []
  · apply settle_branches
    intro other mem
    rcases List.mem_append.1 mem with mem | mem
    · exact both other mem
    · rw [List.mem_singleton.1 mem]
      exact branch

/-- A block owns what comes behind one of its branches. -/
lemma Owns.branch {kind : BlockKind} {opener found : Occurrence} {earlier : List Occurrence}
    (owns : Owns kind opener earlier) {b : Branch} (divides : found.keyword = .branch b) :
    Owns kind opener (found :: earlier) := by
  intro branches keyword both owned
  rw [findOpener_branch divides (by simp), ← List.cons_append]
  apply owns _ keyword _ owned
  intro other mem
  rcases List.mem_cons.1 mem with rfl | mem
  · rfl
  · exact both other mem

/-- A block owns what comes behind a block inside of it. -/
lemma Owns.block {α : Type} {β : Keyword → Type} {next : Option Branch} {kind kind' : BlockKind}
    {opener head close : Occurrence} {earlier inside : List Occurrence} {inner : Nest α β next}
    (owns : Owns kind opener earlier) (opens : head.keyword = .opener kind')
    (spelled : inside.map Occurrence.keyword = inner.keywords)
    (closes : close.keyword = .closer kind') :
    Owns kind opener (close :: (inside.reverse ++ head :: earlier)) := by
  intro branches keyword both owned
  rw [findOpener_block opens spelled closes (by simp)]
  exact owns branches keyword both owned

/-- The closer and the branches of a block find their opener. -/
lemma Owns.find {kind : BlockKind} {opener : Occurrence} {earlier : List Occurrence}
    (owns : Owns kind opener earlier) {keyword : Keyword}
    (owned : keyword = .closer kind ∨ keyword.role = .both) :
    findOpener true [keyword] earlier = some opener :=
  owns [] keyword nofun owned

end KixScript

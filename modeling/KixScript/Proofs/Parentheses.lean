import KixScript.Proofs.Places
import Mathlib.Data.List.Induction
import Mathlib.Data.List.Pairwise
import Mathlib.Data.List.Perm.Basic

/-!
# Parentheses and their partners

An opening parenthesis waits until the closing one comes that is its partner. `Matching` says what the
pairs and the waiting parentheses are behind some atoms; one atom more keeps it, so it holds behind all
of them (`matching`). The depth at an offset is the number of those that wait there, and those are the
opening parentheses before the offset whose partner does not stand before it
(`mem_stillWaiting_iff`). `parentheses_match_depth` says this of the atoms and depths of a scan.
-/

namespace KixScript

/-- Two atoms are an opening parenthesis and the closing one behind it that is its partner. -/
structure Partners (atoms : List Atom) (first second : Nat) : Prop where
  order : first < second
  opens : ∃ start, atoms[first]? = some (.opening start (some second))
  closes : ∃ start, atoms[second]? = some (.closing start (some first))

/-- Whether an atom is an opening parenthesis before an offset whose partner, if it has one, does not
stand before it. -/
def isOpenAt (atoms : List Atom) (offset : Nat) : Atom → Bool
  | .opening start partner =>
    start < offset && (partner.bind fun index => atoms[index]?).all (offset ≤ ·.start)
  | _ => false

/-- The partners of the parentheses of a text agree with each other and with the depths. -/
structure Scan.MatchesParentheses (scan : Scan) (text : List Char) : Prop where
  /-- Whatever has a partner is the partner of it. -/
  partners : ∀ {index partner : Nat} {atom : Atom}, scan.atoms[index]? = some atom →
    atom.partner = some partner →
    Partners scan.atoms index partner ∨ Partners scan.atoms partner index
  /-- No two groups cross: one is behind the other, or inside of it. -/
  nested : ∀ {first second first' second' : Nat}, Partners scan.atoms first second →
    Partners scan.atoms first' second' → first < first' → second < first' ∨ second' < second
  /-- Before a closing parenthesis without a partner, every group is closed. -/
  closed : ∀ {index start : Nat}, scan.atoms[index]? = some (.closing start none) →
    ∀ {earlier start' : Nat} {partner : Option Nat},
      scan.atoms[earlier]? = some (.opening start' partner) → earlier < index →
      ∃ second < index, partner = some second
  /-- The depth is the number of groups that are open. -/
  depth : ∀ offset ≤ text.length,
    scan.depths[offset]? = some (scan.atoms.countP (isOpenAt scan.atoms offset))

/-! ## Pairs and waiting parentheses -/

/-- The opening parentheses that still wait for a partner behind some atoms. -/
def stillWaiting (index : Nat) (waiting : List Nat) : List Atom → List Nat
  | [] => waiting
  | .word _ :: rest => stillWaiting (index + 1) waiting rest
  | .opening _ _ :: rest => stillWaiting (index + 1) (index :: waiting) rest
  | .closing _ _ :: rest => stillWaiting (index + 1) waiting.tail rest

/-- What waits behind two lists waits behind the second one. -/
lemma stillWaiting_append (index : Nat) (waiting : List Nat) (before behind : List Atom) :
    stillWaiting index waiting (before ++ behind)
      = stillWaiting (index + before.length) (stillWaiting index waiting before) behind := by
  induction before generalizing index waiting with
  | nil => rfl
  | cons atom rest ih =>
    rw [List.cons_append, List.length_cons, show index + (rest.length + 1) = index + 1 + rest.length
      from by omega]
    cases atom <;> exact ih _ _

/-- The pairs of two lists are those of the first one and those closed in the second. -/
lemma parenPairs_append (index : Nat) (waiting : List Nat) (before behind : List Atom) :
    parenPairs index waiting (before ++ behind)
      = parenPairs index waiting before
        ++ parenPairs (index + before.length) (stillWaiting index waiting before) behind := by
  induction before generalizing index waiting with
  | nil => rfl
  | cons atom rest ih =>
    rw [List.cons_append, List.length_cons, show index + (rest.length + 1) = index + 1 + rest.length
      from by omega]
    cases atom with
    | word w => exact ih _ _
    | opening start partner => exact ih _ _
    | closing start partner =>
      cases waiting with
      | nil => exact ih _ _
      | cons nearest outer =>
        rw [parenPairs, parenPairs, stillWaiting, ih, List.tail_cons, List.cons_append]

/-- A pair is closed by one of the atoms. -/
lemma snd_of_mem_parenPairs {index : Nat} {waiting : List Nat} {atoms : List Atom} {pair : Nat × Nat}
    (mem : pair ∈ parenPairs index waiting atoms) :
    index ≤ pair.2 ∧ pair.2 < index + atoms.length := by
  induction atoms generalizing index waiting with
  | nil => cases mem
  | cons atom rest ih =>
    rw [List.length_cons]
    cases atom with
    | word w =>
      have bound := ih mem
      omega
    | opening start partner =>
      have bound := ih mem
      omega
    | closing start partner =>
      cases waiting with
      | nil =>
        have bound := ih mem
        omega
      | cons nearest outer =>
        rw [parenPairs] at mem
        rcases List.mem_cons.1 mem with rfl | mem
        · exact ⟨Nat.le_refl _, by simp⟩
        · have bound := ih mem
          omega

/-- One atom more changes what waits. -/
lemma stillWaiting_concat (before : List Atom) (atom : Atom) :
    stillWaiting 0 [] (before ++ [atom])
      = stillWaiting before.length (stillWaiting 0 [] before) [atom] := by
  rw [stillWaiting_append, Nat.zero_add]

/-- The partner of a closing parenthesis is the nearest opening one that waits before it. -/
lemma partner_of_closing (before behind : List Atom) (start : Nat) (partner : Option Nat) :
    ((parenPairs 0 [] (before ++ .closing start partner :: behind)).find?
        (·.2 = before.length)).map (·.1)
      = (stillWaiting 0 [] before).head? := by
  have not_before : (parenPairs 0 [] before).find? (·.2 = before.length) = none := by
    rw [List.find?_eq_none]
    intro pair mem
    have bound := snd_of_mem_parenPairs mem
    simp only [decide_eq_true_eq]
    omega
  have not_behind : ∀ waiting,
      (parenPairs (before.length + 1) waiting behind).find? (·.2 = before.length) = none := by
    intro waiting
    rw [List.find?_eq_none]
    intro pair mem
    have bound := snd_of_mem_parenPairs mem
    simp only [decide_eq_true_eq]
    omega
  rw [parenPairs_append, List.find?_append, not_before, Option.none_or, Nat.zero_add]
  cases waiting : stillWaiting 0 [] before with
  | nil => rw [parenPairs, not_behind, Option.map_none, List.head?_nil]
  | cons nearest outer => simp [parenPairs]

/-- An opening parenthesis has the index. -/
def OpeningAt (atoms : List Atom) (index : Nat) : Prop :=
  ∃ start partner, atoms[index]? = some (.opening start partner)

/-- A closing parenthesis has the index. -/
def ClosingAt (atoms : List Atom) (index : Nat) : Prop :=
  ∃ start partner, atoms[index]? = some (.closing start partner)

/-- A pair of parentheses is closed before another one, inside of it or before it. -/
def ClosedBefore (pair later : Nat × Nat) : Prop :=
  pair.2 < later.2 ∧ (later.1 < pair.1 ∨ pair.2 < later.1)

section
variable {atoms : List Atom} {index : Nat}

/-- The index of an opening parenthesis is one of an atom. -/
lemma OpeningAt.lt_length (opens : OpeningAt atoms index) : index < atoms.length := by
  obtain ⟨_, _, here⟩ := opens
  exact (List.getElem?_eq_some_iff.1 here).1

/-- The index of a closing parenthesis is one of an atom. -/
lemma ClosingAt.lt_length (closes : ClosingAt atoms index) : index < atoms.length := by
  obtain ⟨_, _, here⟩ := closes
  exact (List.getElem?_eq_some_iff.1 here).1

/-- Atoms behind do not change where a parenthesis opens. -/
lemma OpeningAt.append (opens : OpeningAt atoms index) (more : List Atom) :
    OpeningAt (atoms ++ more) index := by
  have bound := opens.lt_length
  obtain ⟨start, partner, here⟩ := opens
  exact ⟨start, partner, by rw [List.getElem?_append_left bound, here]⟩

/-- Atoms behind do not change where a parenthesis closes. -/
lemma ClosingAt.append (closes : ClosingAt atoms index) (more : List Atom) :
    ClosingAt (atoms ++ more) index := by
  have bound := closes.lt_length
  obtain ⟨start, partner, here⟩ := closes
  exact ⟨start, partner, by rw [List.getElem?_append_left bound, here]⟩

/-- Among the first atoms, those behind do not count. -/
lemma openingAt_append_iff {more : List Atom} (bound : index < atoms.length) :
    OpeningAt (atoms ++ more) index ↔ OpeningAt atoms index := by
  rw [OpeningAt, OpeningAt, List.getElem?_append_left bound]

/-- One atom more opens only at its own index. -/
lemma openingAt_concat_iff {atom : Atom} :
    OpeningAt (atoms ++ [atom]) index
      ↔ OpeningAt atoms index ∨ index = atoms.length ∧ ∃ start partner, atom = .opening start partner := by
  rcases Nat.lt_trichotomy index atoms.length with inside | rfl | beyond
  · rw [openingAt_append_iff inside]
    exact ⟨.inl, fun either => either.resolve_right fun ⟨same, _⟩ => Nat.ne_of_lt inside same⟩
  · rw [OpeningAt, List.getElem?_concat_length]
    refine ⟨fun ⟨start, partner, same⟩ => .inr ⟨rfl, start, partner, Option.some.inj same⟩, ?_⟩
    rintro (opens | ⟨_, start, partner, rfl⟩)
    · exact absurd opens.lt_length (Nat.lt_irrefl _)
    · exact ⟨start, partner, rfl⟩
  · refine ⟨fun opens => ?_, ?_⟩
    · have bound := opens.lt_length
      rw [List.length_append, List.length_singleton] at bound
      omega
    · rintro (opens | ⟨same, _⟩)
      · exact absurd opens.lt_length (Nat.lt_asymm beyond)
      · exact absurd same (Nat.ne_of_gt beyond)

end

/-- The pairs behind some atoms, and the opening parentheses that wait there, nearest first. -/
structure Matching (atoms : List Atom) (pairs : List (Nat × Nat)) (waiting : List Nat) : Prop where
  ordered : ∀ pair ∈ pairs, pair.1 < pair.2
  opens : ∀ pair ∈ pairs, OpeningAt atoms pair.1
  closes : ∀ pair ∈ pairs, ClosingAt atoms pair.2
  apart : pairs.Pairwise ClosedBefore
  descending : waiting.Pairwise (· > ·)
  /-- Every opening parenthesis waits, unless it is in a pair. -/
  waits : ∀ index, index ∈ waiting ↔ OpeningAt atoms index ∧ ∀ pair ∈ pairs, pair.1 ≠ index
  /-- No pair reaches over a parenthesis that waits. -/
  free : ∀ pair ∈ pairs, ∀ index ∈ waiting, index < pair.1 ∨ pair.2 < index

namespace Matching
variable {atoms : List Atom} {pairs : List (Nat × Nat)} {waiting : List Nat}

/-- Where there are no atoms, nothing is paired and nothing waits. -/
lemma nil : Matching [] [] [] where
  ordered := nofun
  opens := nofun
  closes := nofun
  apart := .nil
  descending := .nil
  waits := fun _ => ⟨nofun, fun ⟨⟨_, _, here⟩, _⟩ => nomatch here⟩
  free := nofun

/-- An atom that is no opening parenthesis and has no partner leaves all as it is. -/
lemma idle (matching : Matching atoms pairs waiting) {atom : Atom}
    (no_opening : ∀ start partner, atom ≠ .opening start partner) :
    Matching (atoms ++ [atom]) pairs waiting where
  ordered := matching.ordered
  opens := fun pair mem => (matching.opens pair mem).append _
  closes := fun pair mem => (matching.closes pair mem).append _
  apart := matching.apart
  descending := matching.descending
  waits := by
    intro index
    rw [matching.waits, openingAt_concat_iff]
    constructor
    · exact fun ⟨opens, unpaired⟩ => ⟨.inl opens, unpaired⟩
    · rintro ⟨opens | ⟨_, start, partner, same⟩, unpaired⟩
      · exact ⟨opens, unpaired⟩
      · exact absurd same (no_opening start partner)
  free := matching.free

/-- An opening parenthesis waits. -/
lemma opening (matching : Matching atoms pairs waiting) (start : Nat) (partner : Option Nat) :
    Matching (atoms ++ [.opening start partner]) pairs (atoms.length :: waiting) where
  ordered := matching.ordered
  opens := fun pair mem => (matching.opens pair mem).append _
  closes := fun pair mem => (matching.closes pair mem).append _
  apart := matching.apart
  descending :=
    .cons (fun index mem => ((matching.waits index).1 mem).1.lt_length) matching.descending
  waits := by
    intro index
    rw [List.mem_cons, matching.waits, openingAt_concat_iff]
    constructor
    · rintro (rfl | ⟨opens, unpaired⟩)
      · exact ⟨.inr ⟨rfl, start, partner, rfl⟩,
          fun pair mem => Nat.ne_of_lt (matching.opens pair mem).lt_length⟩
      · exact ⟨.inl opens, unpaired⟩
    · rintro ⟨opens | ⟨same, _⟩, unpaired⟩
      · exact .inr ⟨opens, unpaired⟩
      · exact .inl same
  free := by
    intro pair mem index index_mem
    rcases List.mem_cons.1 index_mem with rfl | index_mem
    · exact .inr (matching.closes pair mem).lt_length
    · exact matching.free pair mem index index_mem

/-- A closing parenthesis takes the nearest one that waits. -/
lemma closing {nearest : Nat} (matching : Matching atoms pairs (nearest :: waiting)) (start : Nat)
    (partner : Option Nat) :
    Matching (atoms ++ [.closing start partner]) (pairs ++ [(nearest, atoms.length)]) waiting := by
  obtain ⟨opens, _⟩ := (matching.waits nearest).1 List.mem_cons_self
  obtain ⟨below, descending⟩ := List.pairwise_cons.1 matching.descending
  have others : ∀ {motive : Nat × Nat → Prop}, (∀ pair ∈ pairs, motive pair) →
      motive (nearest, atoms.length) →
      ∀ pair ∈ pairs ++ [(nearest, atoms.length)], motive pair := by
    intro motive earlier last pair mem
    rcases List.mem_append.1 mem with mem | mem
    · exact earlier pair mem
    · rw [List.mem_singleton.1 mem]
      exact last
  refine ⟨?_, ?_, ?_, ?_, descending, ?_, ?_⟩
  · exact others matching.ordered opens.lt_length
  · exact others (fun pair mem => (matching.opens pair mem).append _) (opens.append _)
  · exact others (fun pair mem => (matching.closes pair mem).append _)
      ⟨start, partner, List.getElem?_concat_length⟩
  · refine List.pairwise_append.2 ⟨matching.apart, List.pairwise_singleton _ _, ?_⟩
    intro pair mem last last_mem
    rw [List.mem_singleton.1 last_mem]
    exact ⟨(matching.closes pair mem).lt_length, matching.free pair mem nearest List.mem_cons_self⟩
  · intro index
    have waits := matching.waits index
    rw [List.mem_cons] at waits
    rw [openingAt_concat_iff]
    constructor
    · intro mem
      obtain ⟨opens, unpaired⟩ := waits.1 (.inr mem)
      exact ⟨.inl opens, others unpaired (Nat.ne_of_gt (below index mem))⟩
    · rintro ⟨opens | ⟨_, _, _, same⟩, unpaired⟩
      · have earlier := waits.2 ⟨opens, fun pair mem => unpaired pair (List.mem_append_left _ mem)⟩
        exact earlier.resolve_left fun same =>
          unpaired _ (List.mem_append_right _ List.mem_cons_self) same.symm
      · cases same
  · exact others (fun pair mem index index_mem =>
      matching.free pair mem index (List.mem_cons_of_mem _ index_mem)) fun index mem =>
        .inl (below index mem)

end Matching

/-- Atom by atom, the pairs and the waiting parentheses are what they should be. -/
lemma matching (atoms : List Atom) :
    Matching atoms (parenPairs 0 [] atoms) (stillWaiting 0 [] atoms) := by
  induction atoms using List.reverseRecOn with
  | nil => exact .nil
  | append_singleton before atom ih =>
    rw [parenPairs_append, stillWaiting_concat, Nat.zero_add]
    cases atom with
    | word w =>
      rw [parenPairs, parenPairs, List.append_nil]
      exact ih.idle nofun
    | opening start partner =>
      rw [parenPairs, parenPairs, List.append_nil]
      exact ih.opening start partner
    | closing start partner =>
      cases waiting : stillWaiting 0 [] before with
      | nil =>
        rw [waiting] at ih
        rw [parenPairs, parenPairs, List.append_nil]
        exact ih.idle nofun
      | cons nearest outer =>
        rw [waiting] at ih
        exact ih.closing start partner

/-- Among pairs that a number tells apart, the one with a number is found. -/
lemma find?_eq_some_iff_of_unique {number : Nat × Nat → Nat} {pairs : List (Nat × Nat)}
    (unique : ∀ pair ∈ pairs, ∀ pair' ∈ pairs, number pair = number pair' → pair = pair')
    {place : Nat} {pair : Nat × Nat} :
    pairs.find? (fun pair => number pair = place) = some pair ↔ pair ∈ pairs ∧ number pair = place := by
  constructor
  · intro found
    exact ⟨List.mem_of_find?_eq_some found, by simpa using List.find?_some found⟩
  · rintro ⟨mem, rfl⟩
    obtain ⟨pair', found⟩ := Option.isSome_iff_exists.1
      (List.find?_isSome.2 ⟨pair, mem, by simp⟩ :
        (pairs.find? fun other => number other = number pair).isSome)
    have same : number pair' = number pair := by simpa using List.find?_some found
    rw [found, unique pair' (List.mem_of_find?_eq_some found) pair mem same]

namespace Matching
variable {atoms : List Atom} {pairs : List (Nat × Nat)} {waiting : List Nat}
  (matching : Matching atoms pairs waiting)
include matching

/-- Of two pairs, one is closed before the other. -/
lemma eq_or_apart {pair pair' : Nat × Nat} (mem : pair ∈ pairs) (mem' : pair' ∈ pairs) :
    pair = pair' ∨ ClosedBefore pair pair' ∨ ClosedBefore pair' pair := by
  have ahead : pairs.Pairwise fun pair pair' =>
      pair = pair' ∨ ClosedBefore pair pair' ∨ ClosedBefore pair' pair :=
    matching.apart.imp fun apart => .inr (.inl apart)
  have back : pairs.Pairwise fun pair' pair =>
      pair = pair' ∨ ClosedBefore pair pair' ∨ ClosedBefore pair' pair :=
    matching.apart.imp fun apart => .inr (.inr apart)
  exact ahead.forall_of_forall_of_flip (fun _ _ => .inl rfl) back mem mem'

/-- No two pairs share an opening parenthesis. -/
lemma eq_of_first {pair pair' : Nat × Nat} (mem : pair ∈ pairs) (mem' : pair' ∈ pairs)
    (same : pair.1 = pair'.1) : pair = pair' := by
  have order := matching.ordered pair mem
  have order' := matching.ordered pair' mem'
  rcases matching.eq_or_apart mem mem' with equal | ⟨_, apart⟩ | ⟨_, apart⟩
  · exact equal
  · omega
  · omega

/-- No two pairs share a closing parenthesis. -/
lemma eq_of_second {pair pair' : Nat × Nat} (mem : pair ∈ pairs) (mem' : pair' ∈ pairs)
    (same : pair.2 = pair'.2) : pair = pair' := by
  rcases matching.eq_or_apart mem mem' with equal | ⟨later, _⟩ | ⟨later, _⟩
  · exact equal
  · omega
  · omega

/-- The pair of an opening parenthesis is found. -/
lemma find_first {first second : Nat} :
    (pairs.find? (·.1 = first)).map (·.2) = some second ↔ (first, second) ∈ pairs := by
  rw [Option.map_eq_some_iff]
  simp only [find?_eq_some_iff_of_unique fun _ mem _ mem' => matching.eq_of_first mem mem']
  constructor
  · rintro ⟨pair, ⟨mem, rfl⟩, rfl⟩
    exact mem
  · exact fun mem => ⟨_, ⟨mem, rfl⟩, rfl⟩

/-- The pair of a closing parenthesis is found. -/
lemma find_second {first second : Nat} :
    (pairs.find? (·.2 = second)).map (·.1) = some first ↔ (first, second) ∈ pairs := by
  rw [Option.map_eq_some_iff]
  simp only [find?_eq_some_iff_of_unique fun _ mem _ mem' => matching.eq_of_second mem mem']
  constructor
  · rintro ⟨pair, ⟨mem, rfl⟩, rfl⟩
    exact mem
  · exact fun mem => ⟨_, ⟨mem, rfl⟩, rfl⟩

end Matching

/-! ## Atoms with their partners -/

section
variable {loose : List Atom} {index start : Nat} {partner : Option Nat}

/-- The partner of an opening parenthesis is the one in its pair. -/
lemma opening_pairAtoms_iff :
    (pairAtoms loose)[index]? = some (.opening start partner)
      ↔ (∃ other, loose[index]? = some (.opening start other)) ∧
        ((parenPairs 0 [] loose).find? (·.1 = index)).map (·.2) = partner := by
  rw [pairAtoms, List.getElem?_mapIdx, Option.map_eq_some_iff]
  constructor
  · rintro ⟨atom, here, paired⟩
    cases atom with
    | word w => cases paired
    | opening start' other =>
      obtain ⟨rfl, found⟩ := Atom.opening.inj paired
      exact ⟨⟨other, here⟩, found⟩
    | closing start' other => cases paired
  · rintro ⟨⟨other, here⟩, rfl⟩
    exact ⟨_, here, rfl⟩

/-- The partner of a closing parenthesis is the one in its pair. -/
lemma closing_pairAtoms_iff :
    (pairAtoms loose)[index]? = some (.closing start partner)
      ↔ (∃ other, loose[index]? = some (.closing start other)) ∧
        ((parenPairs 0 [] loose).find? (·.2 = index)).map (·.1) = partner := by
  rw [pairAtoms, List.getElem?_mapIdx, Option.map_eq_some_iff]
  constructor
  · rintro ⟨atom, here, paired⟩
    cases atom with
    | word w => cases paired
    | opening start' other => cases paired
    | closing start' other =>
      obtain ⟨rfl, found⟩ := Atom.closing.inj paired
      exact ⟨⟨other, here⟩, found⟩
  · rintro ⟨⟨other, here⟩, rfl⟩
    exact ⟨_, here, rfl⟩

/-- Partners are the pairs. -/
lemma partners_iff {first second : Nat} :
    Partners (pairAtoms loose) first second ↔ (first, second) ∈ parenPairs 0 [] loose := by
  constructor
  · rintro ⟨_, ⟨start, opens⟩, _⟩
    exact (matching loose).find_first.1 (opening_pairAtoms_iff.1 opens).2
  · intro mem
    obtain ⟨start, other, opens⟩ := (matching loose).opens _ mem
    obtain ⟨stop, other', closes⟩ := (matching loose).closes _ mem
    refine ⟨(matching loose).ordered _ mem, ⟨start, ?_⟩, ⟨stop, ?_⟩⟩
    · exact opening_pairAtoms_iff.2 ⟨⟨other, opens⟩, (matching loose).find_first.2 mem⟩
    · exact closing_pairAtoms_iff.2 ⟨⟨other', closes⟩, (matching loose).find_second.2 mem⟩

end

section
variable {front back : List Atom} {index : Nat}

/-- An opening parenthesis still waits if its partner comes later, or never. -/
lemma mem_stillWaiting_iff :
    index ∈ stillWaiting 0 [] front
      ↔ OpeningAt front index ∧
        ∀ second, (index, second) ∈ parenPairs 0 [] (front ++ back) → front.length ≤ second := by
  rw [(matching front).waits, parenPairs_append, Nat.zero_add]
  refine and_congr_right fun _ => ⟨fun unpaired second mem => ?_, fun later pair mem same => ?_⟩
  · rcases List.mem_append.1 mem with mem | mem
    · exact absurd rfl (unpaired _ mem)
    · exact (snd_of_mem_parenPairs mem).1
  · obtain ⟨first, second⟩ := pair
    obtain rfl : first = index := same
    have bound := later second (List.mem_append_left _ mem)
    exact absurd ((matching front).closes _ mem).lt_length (Nat.not_lt.2 bound)

/-- The parentheses that are open at an offset wait there. -/
lemma exists_isOpenAt_iff {offset : Nat}
    (starts : ∀ index atom, (front ++ back)[index]? = some atom →
      (atom.start < offset ↔ index < front.length)) :
    (∃ atom, (pairAtoms (front ++ back))[index]? = some atom ∧
        isOpenAt (pairAtoms (front ++ back)) offset atom = true)
      ↔ index ∈ stillWaiting 0 [] front := by
  have partner_behind : ∀ second, (index, second) ∈ parenPairs 0 [] (front ++ back) →
      ((((pairAtoms (front ++ back))[second]?).all (offset ≤ ·.start)) = true
        ↔ front.length ≤ second) := by
    intro second mem
    obtain ⟨_, _, stop, closes⟩ := partners_iff.2 mem
    obtain ⟨⟨other, here⟩, _⟩ := closing_pairAtoms_iff.1 closes
    have start := starts second _ here
    rw [Atom.start] at start
    rw [closes, Option.all_some, decide_eq_true_eq, Atom.start, ← Nat.not_lt, start, Nat.not_lt]
  rw [@mem_stillWaiting_iff front back]
  constructor
  · rintro ⟨atom, found, is_open⟩
    cases atom with
    | word w => cases is_open
    | closing start partner => cases is_open
    | opening start partner =>
      obtain ⟨⟨other, here⟩, pair⟩ := opening_pairAtoms_iff.1 found
      obtain ⟨before, behind⟩ := Bool.and_eq_true_iff.1 is_open
      have inside := (starts index _ here).1 (of_decide_eq_true before)
      refine ⟨(openingAt_append_iff inside).1 ⟨start, other, here⟩, fun second mem => ?_⟩
      rw [← pair, (matching _).find_first.2 mem] at behind
      exact (partner_behind second mem).1 behind
  · rintro ⟨opens, later⟩
    obtain ⟨start, other, here⟩ := opens.append back
    refine ⟨_, opening_pairAtoms_iff.2 ⟨⟨other, here⟩, rfl⟩, Bool.and_eq_true_iff.2 ⟨?_, ?_⟩⟩
    · exact decide_eq_true ((starts index _ here).2 opens.lt_length)
    · cases pair : ((parenPairs 0 [] (front ++ back)).find? (·.1 = index)).map (·.2) with
      | none => rfl
      | some second =>
        have mem := (matching _).find_first.1 pair
        exact (partner_behind second mem).2 (later second mem)

end

/-! ## Depths -/

/-- The words and parentheses of some lexemes, before parentheses are paired. -/
def looseAtoms (cursor : Cursor) (lexemes : List Lexeme) : List Atom :=
  (placed cursor lexemes).filterMap Piece.atom?

/-- The atoms of two lists of lexemes stand one behind the other. -/
lemma looseAtoms_append (cursor : Cursor) (before behind : List Lexeme) :
    looseAtoms cursor (before ++ behind)
      = looseAtoms cursor before ++ looseAtoms (cursor.after before) behind := by
  rw [looseAtoms, placed_append, List.filterMap_append]
  rfl

/-- The atoms of a script are those of its lexemes, with their partners. -/
lemma atoms_ofText (text : List Char) :
    (Script.ofText text).scan.atoms = pairAtoms (looseAtoms .start (lexemes text)) := rfl

/-- An atom stands where its piece does. -/
lemma Piece.span_of_atom? {piece : Piece} {atom : Atom} (h : piece.atom? = some atom) :
    atom.start = piece.start ∧ atom.stop = piece.stop := by
  obtain ⟨lexeme, cursor⟩ := piece
  cases lexeme with
  | word text =>
    obtain rfl := Option.some.inj h
    exact ⟨rfl, rfl⟩
  | opening =>
    obtain rfl := Option.some.inj h
    exact ⟨rfl, rfl⟩
  | closing =>
    obtain rfl := Option.some.inj h
    exact ⟨rfl, rfl⟩
  | space c => cases h
  | punctuation text => cases h
  | region kind text closed => cases h

section
variable {text : List Char} {before behind : List Lexeme}

/-- The pieces before an offset start before it. -/
lemma starts_before_joint (joint : lexemes text = before ++ behind) :
    ∀ piece ∈ placed .start before, (piece.start : Int) < (written before).length := by
  intro piece mem
  have stop := stop_le_of_mem_placed mem
  have some_text : piece.start < piece.stop := by
    apply (lexemes_eq_iff.1 joint).1.start_lt_stop
    rw [placed_append]
    exact List.mem_append_left _ mem
  rw [Cursor.start_after_offset] at stop
  omega

/-- The pieces behind an offset do not start before it. -/
lemma starts_behind_joint :
    ∀ piece ∈ placed (Cursor.start.after before) behind,
      ((written before).length : Int) ≤ piece.start := by
  intro piece mem
  have start := le_start_of_mem_placed mem
  rw [Cursor.start_after_offset] at start
  omega

end

section
variable {text : List Char} {offset : Nat}

/-- The depth that is found is in the table of depths. -/
lemma getElem?_depths (bound : offset ≤ text.length) :
    (Script.ofText text).scan.depths[offset]? = some ((Script.ofText text).depthAt offset) := by
  have length : (Script.ofText text).scan.depths.length = text.length + 1 := by
    rw [depths_ofText, List.length_append, length_depths, ← length_eq_of_lexemes rfl]
    rfl
  rw [Script.depthAt, length_ofText, Nat.min_eq_left bound,
    List.getElem?_eq_getElem (length ▸ Nat.lt_succ_of_le bound)]
  rfl

/-- The lexemes that begin before an offset, and the depth there. -/
lemma exists_cut (bound : offset ≤ text.length) :
    ∃ before behind, lexemes text = before ++ behind ∧
      (∀ piece ∈ placed .start before, piece.start < offset) ∧
      (∀ piece ∈ placed (Cursor.start.after before) behind, offset ≤ piece.start) ∧
      (Script.ofText text).scan.depths[offset]? = some (Cursor.start.after before).depth := by
  rcases Nat.eq_zero_or_pos offset with rfl | positive
  · exact ⟨[], lexemes text, rfl, nofun, fun _ _ => Nat.zero_le _,
      depths_joint (List.nil_append (lexemes text)).symm⟩
  rw [length_eq_of_lexemes rfl] at bound
  obtain ⟨earlier, lexeme, behind, joint, lower, upper⟩ := exists_lexeme_at positive bound
  have joint' : lexemes text = (earlier ++ [lexeme]) ++ behind := by
    rw [joint, List.append_assoc, List.singleton_append]
  have length : (written (earlier ++ [lexeme])).length
      = (written earlier).length + lexeme.text.length := by
    rw [written_append, written_cons, written_nil, List.append_nil, List.length_append]
  refine ⟨earlier ++ [lexeme], behind, joint', ?_, ?_, ?_⟩
  · intro piece mem
    rw [placed_append, List.mem_append] at mem
    rcases mem with mem | mem
    · have start := starts_before_joint joint piece mem
      omega
    · obtain rfl := List.mem_singleton.1 mem
      rw [Piece.start, Cursor.start_after_offset]
      exact lower
  · intro piece mem
    have start := le_start_of_mem_placed mem
    rw [Cursor.start_after_offset, length] at start
    omega
  · rcases Nat.lt_or_eq_of_le upper with inside | rfl
    · -- Parentheses have no inside, so the lexeme leaves the depth as it is.
      have depth := @depthAt_inside text earlier behind lexeme (offset - (written earlier).length) joint
        (by omega)
      rw [Nat.add_sub_cancel' (Nat.le_of_lt lower)] at depth
      rw [getElem?_depths (length_eq_of_lexemes rfl ▸ bound), depth, Cursor.after_append,
        Cursor.after_cons, Cursor.after_nil]
      cases lexeme with
      | opening => exact absurd inside (Nat.not_lt.2 lower)
      | closing => exact absurd inside (Nat.not_lt.2 lower)
      | _ => rfl
    · rw [← length]
      exact depths_joint joint'

/-- The depth is the number of opening parentheses that wait. -/
lemma length_stillWaiting (lexemes : List Lexeme) :
    (stillWaiting 0 [] (looseAtoms .start lexemes)).length = (Cursor.start.after lexemes).depth := by
  induction lexemes using List.reverseRecOn with
  | nil => rfl
  | append_singleton before lexeme ih =>
    rw [looseAtoms_append, stillWaiting_append, Cursor.after_append]
    cases lexeme with
    | opening => exact congrArg Nat.succ ih
    | closing => exact (List.length_tail).trans (congrArg Nat.pred ih)
    | _ => exact ih

/-- The depth at an offset is the number of parentheses that are open there. -/
lemma depths_eq_countP (bound : offset ≤ text.length) :
    (Script.ofText text).scan.depths[offset]?
      = some ((Script.ofText text).scan.atoms.countP
          (isOpenAt (Script.ofText text).scan.atoms offset)) := by
  obtain ⟨before, behind, joint, starts_before, starts_behind, depth⟩ := exists_cut bound
  have loose : looseAtoms .start (lexemes text)
      = looseAtoms .start before ++ looseAtoms (Cursor.start.after before) behind := by
    rw [joint, looseAtoms_append]
  have starts : ∀ index atom,
      (looseAtoms .start before ++ looseAtoms (Cursor.start.after before) behind)[index]? = some atom →
      (atom.start < offset ↔ index < (looseAtoms .start before).length) := by
    intro index atom here
    rcases Nat.lt_or_ge index (looseAtoms .start before).length with inside | beyond
    · rw [List.getElem?_append_left inside] at here
      obtain ⟨piece, mem, found⟩ := List.mem_filterMap.1 (List.mem_of_getElem? here)
      rw [(Piece.span_of_atom? found).1]
      exact iff_of_true (starts_before piece mem) inside
    · rw [List.getElem?_append_right beyond] at here
      obtain ⟨piece, mem, found⟩ := List.mem_filterMap.1 (List.mem_of_getElem? here)
      rw [(Piece.span_of_atom? found).1]
      exact iff_of_false (Nat.not_lt.2 (starts_behind piece mem)) (Nat.not_lt.2 beyond)
  have same : ((Script.ofText text).scan.atoms.findIdxs
        (isOpenAt (Script.ofText text).scan.atoms offset)).Perm
      (stillWaiting 0 [] (looseAtoms .start before)) := by
    refine (List.perm_ext_iff_of_nodup List.nodup_findIdxs
      ((matching _).descending.imp Nat.ne_of_gt)).2 fun index => ?_
    rw [List.mem_findIdxs_iff_exists_getElem_pos, ← exists_isOpenAt_iff starts, ← loose, atoms_ofText]
    constructor
    · exact fun ⟨bound, is_open⟩ => ⟨_, List.getElem?_eq_getElem bound, is_open⟩
    · rintro ⟨atom, here, is_open⟩
      obtain ⟨bound, rfl⟩ := List.getElem?_eq_some_iff.1 here
      exact ⟨bound, is_open⟩
  rw [depth, ← length_stillWaiting, ← same.length_eq, List.length_findIdxs]

end

/-- A list is split at an entry that has an index. -/
lemma exists_of_getElem? {α : Type} {items : List α} {index : Nat} {item : α}
    (here : items[index]? = some item) :
    ∃ front back, items = front ++ item :: back ∧ front.length = index := by
  obtain ⟨bound, rfl⟩ := List.getElem?_eq_some_iff.1 here
  refine ⟨items.take index, items.drop (index + 1), ?_, List.length_take_of_le (Nat.le_of_lt bound)⟩
  rw [List.getElem_cons_drop, List.take_append_drop]

/-- Every parenthesis with a partner is the partner of its partner, groups never cross, and the depth at
an offset counts the groups that are open there. -/
theorem parentheses_match_depth (text : List Char) : (Scan.ofText text).MatchesParentheses text where
  partners := by
    intro index partner atom here is_partner
    cases atom with
    | word w => cases is_partner
    | opening start other =>
      obtain rfl : other = some partner := is_partner
      exact .inl (partners_iff.2 ((matching _).find_first.1 (opening_pairAtoms_iff.1 here).2))
    | closing start other =>
      obtain rfl : other = some partner := is_partner
      exact .inr (partners_iff.2 ((matching _).find_second.1 (closing_pairAtoms_iff.1 here).2))
  nested := by
    intro first second first' second' pair pair' order
    have mem := partners_iff.1 pair
    have mem' := partners_iff.1 pair'
    rcases (matching _).eq_or_apart mem mem' with same | ⟨_, apart⟩ | ⟨inner, _⟩
    · exact absurd (congrArg Prod.fst same) (Nat.ne_of_lt order)
    · exact .inl (apart.resolve_left (Nat.lt_asymm order))
    · exact .inr inner
  closed := by
    intro index start closes earlier start' partner opens order
    obtain ⟨⟨other, here⟩, unpaired⟩ := closing_pairAtoms_iff.1 closes
    obtain ⟨⟨other', here'⟩, pair⟩ := opening_pairAtoms_iff.1 opens
    obtain ⟨front, back, split, rfl⟩ := exists_of_getElem? here
    -- Nothing waits where the parenthesis stands, or it would have a partner.
    rw [split, partner_of_closing, List.head?_eq_none_iff] at unpaired
    rw [split, List.getElem?_append_left order] at here'
    have not_waiting : earlier ∉ stillWaiting 0 [] front := by
      rw [unpaired]
      exact List.not_mem_nil
    have paired := mt (@mem_stillWaiting_iff front (.closing start other :: back) earlier).2 not_waiting
    rw [not_and, not_forall] at paired
    obtain ⟨second, paired⟩ := paired ⟨start', other', here'⟩
    rw [Classical.not_imp, Nat.not_le, ← split] at paired
    refine ⟨second, paired.2, ?_⟩
    rw [← pair, (matching _).find_first.2 paired.1]
  depth := fun _ => depths_eq_countP

end KixScript

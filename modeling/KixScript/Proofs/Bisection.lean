import KixScript.Proofs.Partition
import KixScript.Proofs.Positions
import Mathlib.Order.Bounds.Basic

/-!
# Lookups by bisection

The comments and strings of a script stand in order, and so do its words and parentheses, and its
lines. So an offset is looked up among them by halving a table of where they start. A step of such a search keeps what is
decided about the entries on both sides (`Window.Separates.halve`), so the search ends behind the
entries that come before the place (`Window.Separates.search`). Nothing overlaps, so at most one of
them is around an offset, and it is the last one that starts before (`filter_eq_toList`). A look at
every one of them finds no other (`lookups_by_bisection`).
-/

namespace KixScript

/-! ## Halving -/

/-- The indices that a search in a table has not decided about: from `low` up to `high` exclusive. -/
structure Window (table : List Nat) where
  low : Nat
  high : Nat
  low_le_high : low ≤ high
  high_le_length : high ≤ table.length

namespace Window
variable {table : List Nat} {window : Window table}

/-- All indices of a table. -/
def whole (table : List Nat) : Window table :=
  ⟨0, table.length, Nat.zero_le _, Nat.le_refl _⟩

/-- The index to decide about next. -/
def middle (window : Window table) : Nat :=
  (window.low + window.high) / 2

/-- The middle is not below the window. -/
lemma low_le_middle (window : Window table) : window.low ≤ window.middle := by
  have order := window.low_le_high
  rw [middle]
  omega

/-- The middle is below the end of a window that is not empty. -/
lemma middle_lt_high (undecided : window.low < window.high) : window.middle < window.high := by
  rw [middle]
  omega

/-- The middle is in the table. -/
lemma middle_lt_length (undecided : window.low < window.high) : window.middle < table.length :=
  Nat.lt_of_lt_of_le (middle_lt_high undecided) window.high_le_length

/-- What is left when the entry in the middle is read. If it comes before the place that is looked
for, then so do those below it, else those above it do not. -/
def halve (before : Nat → Bool) (window : Window table) (undecided : window.low < window.high) :
    Window table :=
  if before (table.get ⟨window.middle, middle_lt_length undecided⟩) then
    { low := window.middle + 1
      high := window.high
      low_le_high := middle_lt_high undecided
      high_le_length := window.high_le_length }
  else
    { low := window.low
      high := window.middle
      low_le_high := window.low_le_middle
      high_le_length := Nat.le_of_lt (middle_lt_length undecided) }

/-- Halving makes a window smaller. -/
lemma size_halve_lt (before : Nat → Bool) (undecided : window.low < window.high) :
    (window.halve before undecided).high - (window.halve before undecided).low
      < window.high - window.low := by
  have lower := window.low_le_middle
  have upper := middle_lt_high undecided
  rw [halve]
  split
  · show window.high - (window.middle + 1) < _
    omega
  · show window.middle - window.low < _
    omega

/-- Halves a window until nothing is left to decide. -/
def search (before : Nat → Bool) (window : Window table) : Nat :=
  if undecided : window.low < window.high then (window.halve before undecided).search before
  else window.low
termination_by window.high - window.low
decreasing_by exact size_halve_lt before undecided

/-- All entries below a window come before the place that is looked for, and none above it does. -/
structure Separates (before : Nat → Bool) (window : Window table) : Prop where
  below : ∀ entry ∈ table.take window.low, before entry = true
  above : ∀ entry ∈ table.drop window.high, before entry = false

end Window

/-- In a table in order, an entry has the smaller ones below it and the greater ones above it. -/
lemma entries_around {α : Type} {place : α → Nat} {all : List α}
    (order : all.Pairwise fun entry entry' => place entry ≤ place entry') {index : Nat}
    (bound : index < all.length) :
    (∀ entry ∈ all.take (index + 1), place entry ≤ place all[index]) ∧
      ∀ entry ∈ all.drop index, place all[index] ≤ place entry := by
  have split : all.take index ++ all[index] :: all.drop (index + 1) = all := by
    rw [List.getElem_cons_drop, List.take_append_drop]
  rw [← split, List.pairwise_append, List.pairwise_cons] at order
  obtain ⟨_, ⟨later, _⟩, earlier⟩ := order
  constructor
  · intro entry mem
    rw [List.take_succ_eq_append_getElem bound] at mem
    rcases List.mem_append.1 mem with mem | mem
    · exact earlier entry mem _ List.mem_cons_self
    · rw [List.mem_singleton.1 mem]
  · intro entry mem
    rw [List.drop_eq_getElem_cons bound] at mem
    rcases List.mem_cons.1 mem with rfl | mem
    · exact Nat.le_refl _
    · exact later entry mem

namespace Window
section
variable {table : List Nat} {window : Window table} {before : Nat → Bool}
  (sorted : table.Pairwise (· ≤ ·))
  (down : ∀ {entry entry' : Nat}, entry ≤ entry' → before entry' = true → before entry = true)
include sorted down

/-- A step decides about the entries on one side of the middle. -/
lemma Separates.halve (separates : window.Separates before)
    (undecided : window.low < window.high) : (window.halve before undecided).Separates before := by
  obtain ⟨smaller, greater⟩ := @entries_around Nat id table sorted _ (middle_lt_length undecided)
  rw [Window.halve]
  split
  · rename_i is_before
    exact ⟨fun entry mem => down (smaller entry mem) is_before, separates.above⟩
  · rename_i not_before
    refine ⟨separates.below, ?_⟩
    intro entry mem
    exact Bool.eq_false_iff.2 fun is_before => not_before (down (greater entry mem) is_before)

/-- At the end of a search all is decided. -/
lemma Separates.search (separates : window.Separates before) :
    ∃ last : Window table, last.Separates before ∧ last.low = window.search before ∧
      last.high = window.search before := by
  fun_induction Window.search before window with
  | case1 window undecided ih => exact ih (separates.halve sorted down undecided)
  | case2 window decided =>
    exact ⟨window, separates, rfl, Nat.le_antisymm (Nat.not_lt.1 decided) window.low_le_high⟩

/-- A search counts the entries that come before the place. -/
lemma search_whole : (whole table).search before = (table.filter before).length := by
  have start : (whole table).Separates before := by
    constructor
    · intro entry mem
      cases mem
    · intro entry mem
      rw [whole, List.drop_length] at mem
      cases mem
  obtain ⟨last, ⟨below, above⟩, low, high⟩ := start.search sorted down
  have bound := last.high_le_length
  rw [high] at above bound
  rw [low] at below
  have first : table.filter before = table.take ((whole table).search before) := by
    conv_lhs => rw [← List.take_append_drop ((whole table).search before) table]
    rw [List.filter_append, List.filter_eq_self.2 below, List.filter_eq_nil_iff.2, List.append_nil]
    intro entry mem
    rw [above entry mem]
    exact Bool.false_ne_true
  rw [first, List.length_take_of_le bound]

end
end Window

/-- The index behind the entries of a table that are below a place. -/
def bisectLeft (table : List Nat) (place : Int) : Nat :=
  (Window.whole table).search fun entry => entry < place

/-- The index behind the entries of a table that are not above a place. -/
def bisectRight (table : List Nat) (place : Int) : Nat :=
  (Window.whole table).search fun entry => !decide (place < entry)

section
variable {α : Type} {place : α → Nat} {all : List α}
  (order : all.Pairwise fun entry entry' => place entry ≤ place entry')
include order

/-- Bisection from the left counts the places before an offset. -/
lemma bisectLeft_map (offset : Int) :
    bisectLeft (all.map place) offset
      = (all.filter fun entry => (place entry : Int) < offset).length := by
  have sorted : (all.map place).Pairwise (· ≤ ·) := List.pairwise_map.2 order
  rw [bisectLeft, Window.search_whole sorted, List.filter_map, List.length_map]
  · rfl
  · intro entry entry' le below
    rw [decide_eq_true_eq] at below ⊢
    omega

/-- Bisection from the right counts the places up to an offset. -/
lemma bisectRight_map (offset : Int) :
    bisectRight (all.map place) offset
      = (all.filter fun entry => (place entry : Int) < offset + 1).length := by
  have same : (fun entry : Nat => !decide (offset < entry))
      = fun entry : Nat => decide ((entry : Int) < offset + 1) := by
    funext entry
    rw [← decide_not, decide_eq_decide]
    omega
  rw [bisectRight, same]
  exact bisectLeft_map order (offset + 1)

end

/-! ## Looking up and looking through -/

namespace Script
variable (script : Script) (offset : Int)

/-- The comment or string that contains an offset, by bisection. Only the last one that starts before
the offset is read. -/
def searchRegion : Option (Option Region) :=
  -- A region that starts at the offset does not contain it, so the starts up to the one before count.
  match bisectRight (script.scan.regions.map Region.start) (offset - 1) with
  | 0 => some none
  | index + 1 =>
    script.scan.regions[index]?.map fun region => (some region).filter (·.contains offset)

/-- The index of the last atom that starts before an offset, by bisection. If there is none, it is the
one below the first. -/
def searchAtom : Int :=
  bisectLeft (script.scan.atoms.map Atom.start) offset - 1

/-- The block keyword whose word covers an offset, by bisection. -/
def searchKeyword : Option (Option Occurrence) :=
  -- A word that starts at the offset does cover it.
  match bisectLeft (script.scan.atoms.map Atom.start) (offset + 1) with
  | 0 => some none
  | index + 1 =>
    script.scan.atoms[index]?.map fun atom => if atom.stop ≤ offset then none else atom.occurrence?

/-- Where the lines start. -/
def lineStarts : List Nat :=
  script.lines.map Line.start

/-- The number of the line that an offset lies on, by bisection in the table of lines. -/
def searchLine : Int :=
  bisectRight script.lineStarts (script.clamp offset) - 1

/-- The indices of the atoms that start before an offset. -/
def indicesBefore : Set Nat :=
  {index | ∃ atom, script.scan.atoms[index]? = some atom ∧ atom.start < offset}

end Script

/-- The block keyword that a word spells. A member of an object is none. -/
def Word.spelled? (word : Word) : Option Occurrence :=
  if word.member then none
  else (Keyword.ofText? word.text).map fun keyword => ⟨keyword, word.start, word.stop⟩

/-- The block keywords of the words that cover an offset, each word looked at. -/
def Script.keywordsOver (script : Script) (offset : Int) : List Occurrence :=
  (script.scan.words.filter fun word => word.start ≤ offset ∧ offset < word.stop).filterMap
    Word.spelled?

/-! ## Entries around an offset -/

/-- Of entries in order, those before an offset come first. -/
lemma filter_eq_take {α : Type} {place : α → Nat} {all : List α}
    (order : all.Pairwise fun entry entry' => place entry ≤ place entry') (offset : Int) :
    all.filter (fun entry => (place entry : Int) < offset)
      = all.take (all.filter fun entry => (place entry : Int) < offset).length := by
  induction order with
  | nil => rfl
  | @cons entry rest later _ ih =>
    by_cases before : (place entry : Int) < offset
    · rw [List.filter_cons_of_pos (by rwa [decide_eq_true_eq]), List.length_cons,
        List.take_succ_cons, ← ih]
    · have nothing : rest.filter (fun entry => (place entry : Int) < offset) = [] := by
        rw [List.filter_eq_nil_iff]
        intro other mem
        have bound := later other mem
        rw [decide_eq_true_eq]
        omega
      rw [List.filter_cons_of_neg (by rwa [decide_eq_true_eq]), nothing]
      rfl

/-- The last one of the entries before an offset is read by its index. -/
lemma getElem?_of_length_filter {α : Type} {place : α → Nat} {all : List α}
    (order : all.Pairwise fun entry entry' => place entry ≤ place entry') {offset : Int}
    {index : Nat} (length : (all.filter fun entry => (place entry : Int) < offset).length = index + 1) :
    ∃ entry, all[index]? = some entry ∧
      (all.filter fun entry => (place entry : Int) < offset).getLast? = some entry := by
  have first := filter_eq_take order offset
  rw [length] at first
  have bound : index < all.length := by
    have shorter := List.length_filter_le (fun entry => decide ((place entry : Int) < offset)) all
    omega
  refine ⟨all[index], List.getElem?_eq_getElem bound, ?_⟩
  rw [first, List.take_succ_eq_append_getElem bound, List.getLast?_concat]

/-- Of stretches that do not overlap, only the last one that starts before an offset can be around
it. -/
lemma filter_eq_toList {α : Type} {span : α → Span} {all : List α} (ascending : Ascending (all.map span))
    {around : α → Bool} {offset : Int} (bounds : ∀ entry, around entry = true →
      (span entry).start < offset ∧ offset ≤ (span entry).stop) :
    all.filter around
      = ((all.filter fun entry => ((span entry).start : Int) < offset).getLast?.filter around).toList := by
  have among : all.filter around
      = (all.filter fun entry => ((span entry).start : Int) < offset).filter around := by
    rw [List.filter_filter]
    apply List.filter_congr
    intro entry _
    cases is_around : around entry with
    | false => rfl
    | true => exact (decide_eq_true (bounds entry is_around).1).symm
  rw [among]
  rcases List.eq_nil_or_concat (all.filter fun entry => ((span entry).start : Int) < offset) with
    nothing | ⟨front, last, concat⟩
  · rw [nothing]
    rfl
  · rw [List.concat_eq_append] at concat
    have before : ((span last).start : Int) < offset := by
      have mem : last ∈ all.filter fun entry => ((span entry).start : Int) < offset := by
        rw [concat]
        exact List.mem_append_right _ List.mem_cons_self
      exact of_decide_eq_true (List.mem_filter.1 mem).2
    have apart := (List.pairwise_map.1 ascending.2).filter fun entry =>
      decide (((span entry).start : Int) < offset)
    rw [concat, List.pairwise_append] at apart
    -- The others stop before the last one starts, and so before the offset.
    have passed : front.filter around = [] := by
      rw [List.filter_eq_nil_iff]
      intro entry mem is_around
      have stop := (apart.2.2 entry mem last List.mem_cons_self).2
      have inside := (bounds entry is_around).2
      omega
    rw [concat, List.filter_append, passed, List.nil_append, List.getLast?_concat, Option.filter_some,
      List.filter_singleton]
    cases around last <;> rfl

/-- In a table in order, the entries before an offset have the first indices. -/
lemma lt_length_filter_iff {α : Type} {place : α → Nat} {all : List α}
    (order : all.Pairwise fun entry entry' => place entry ≤ place entry') {offset : Int} {index : Nat} :
    (∃ entry, all[index]? = some entry ∧ (place entry : Int) < offset)
      ↔ index < (all.filter fun entry => (place entry : Int) < offset).length := by
  constructor
  · rintro ⟨entry, here, before⟩
    obtain ⟨bound, rfl⟩ := List.getElem?_eq_some_iff.1 here
    have kept : (all.take (index + 1)).filter (fun entry => (place entry : Int) < offset)
        = all.take (index + 1) := by
      rw [List.filter_eq_self]
      intro entry mem
      have smaller := (entries_around order bound).1 entry mem
      rw [decide_eq_true_eq]
      omega
    calc index < (all.take (index + 1)).length := by
          rw [List.length_take_of_le bound]
          exact Nat.lt_succ_self index
      _ = ((all.take (index + 1)).filter fun entry => (place entry : Int) < offset).length := by
          rw [kept]
      _ ≤ (all.filter fun entry => (place entry : Int) < offset).length :=
          ((List.take_sublist _ _).filter _).length_le
  · intro bound
    have here := List.getElem?_eq_getElem bound
    have before := (List.mem_filter.1 (List.getElem_mem bound)).2
    refine ⟨_, ?_, of_decide_eq_true before⟩
    rw [← here]
    conv_rhs => rw [filter_eq_take order, List.getElem?_take_of_lt bound]

section
variable {text : List Char} (offset : Int)

/-! ## Comments and strings -/

omit offset in
/-- Comments and strings are listed by their starts. -/
lemma pairwise_regions (text : List Char) :
    (Script.ofText text).scan.regions.Pairwise fun region region' =>
      region.start ≤ region'.start := by
  apply List.Pairwise.filterMap _ _ (pairwise_placed .start (lexemes text))
  intro piece piece' order region here region' here'
  obtain ⟨_, _, start, _⟩ := Piece.region?_eq_some here
  obtain ⟨_, _, start', _⟩ := Piece.region?_eq_some here'
  have stop : piece.start ≤ piece.stop := Nat.le_add_right _ _
  rw [start, start']
  exact Nat.le_trans stop order

/-- Bisection finds the comment or string at an offset. -/
lemma searchRegion_eq :
    (Script.ofText text).searchRegion offset = some ((Script.ofText text).regionAt offset) := by
  rw [Script.searchRegion, bisectRight_map (pairwise_regions text), Int.sub_add_cancel,
    Script.regionAt]
  cases length : ((Script.ofText text).scan.regions.filter fun region =>
      (region.start : Int) < offset).length with
  | zero =>
    rw [List.length_eq_zero_iff.1 length]
    rfl
  | succ index =>
    obtain ⟨region, here, last⟩ := getElem?_of_length_filter (pairwise_regions text) length
    dsimp only
    rw [here, last, Option.map_some]

/-- At most one comment or string contains an offset. -/
lemma filter_contains :
    (Script.ofText text).scan.regions.filter (·.contains offset)
      = ((Script.ofText text).regionAt offset).toList := by
  apply filter_eq_toList (ascending_regions text)
  intro region contains
  rw [Region.contains, Bool.and_eq_true, decide_eq_true_eq] at contains
  obtain ⟨start, inside⟩ := contains
  refine ⟨start, ?_⟩
  split at inside
  · exact Int.le_of_lt (of_decide_eq_true inside)
  · exact of_decide_eq_true inside

/-! ## Atoms -/

omit offset in
/-- Atoms are listed by their starts. -/
lemma pairwise_atomStarts (text : List Char) :
    (Script.ofText text).scan.atoms.Pairwise fun atom atom' => atom.start ≤ atom'.start := by
  apply List.Pairwise.imp_of_mem _ (pairwise_atoms text)
  intro atom atom' mem _ order
  exact Nat.le_trans (Nat.le_of_lt (start_lt_stop_of_mem mem)) order

/-- As many atoms start before an offset as the search counts. -/
lemma bisectLeft_atoms :
    bisectLeft ((Script.ofText text).scan.atoms.map Atom.start) offset
      = ((Script.ofText text).atomsBefore offset).length :=
  bisectLeft_map (pairwise_atomStarts text) offset

/-- Bisection finds the last atom before an offset. -/
lemma searchAtom_eq :
    (Script.ofText text).searchAtom offset
      = ((Script.ofText text).lastAtomBefore? offset).elim (-1) Int.ofNat := by
  rw [Script.searchAtom, bisectLeft_atoms, Script.lastAtomBefore?]
  cases ((Script.ofText text).atomsBefore offset).length with
  | zero => rfl
  | succ index =>
    show ((index + 1 : Nat) : Int) - 1 = index
    omega

/-- The atoms before an offset come first. -/
lemma indicesBefore_eq :
    (Script.ofText text).indicesBefore offset
      = Set.Iio ((Script.ofText text).atomsBefore offset).length :=
  Set.ext fun _ => lt_length_filter_iff (pairwise_atomStarts text)

/-- The last atom before an offset has the greatest index. -/
lemma lastAtomBefore?_eq_some_iff {index : Nat} :
    (Script.ofText text).lastAtomBefore? offset = some index
      ↔ IsGreatest ((Script.ofText text).indicesBefore offset) index := by
  rw [indicesBefore_eq, Script.lastAtomBefore?]
  cases ((Script.ofText text).atomsBefore offset).length with
  | zero =>
    refine ⟨?_, fun greatest => absurd greatest.1 (Nat.not_lt_zero _)⟩
    intro found
    cases found
  | succ last =>
    constructor
    · intro found
      obtain rfl := Option.some.inj found
      exact ⟨Nat.lt_succ_self _, fun _ => Nat.le_of_lt_succ⟩
    · rintro ⟨bound, greatest⟩
      exact congrArg some
        (Nat.le_antisymm (greatest (Nat.lt_succ_self last)) (Nat.le_of_lt_succ bound))

/-- There is no last atom if there is none before the offset. -/
lemma lastAtomBefore?_eq_none_iff :
    (Script.ofText text).lastAtomBefore? offset = none
      ↔ (Script.ofText text).indicesBefore offset = ∅ := by
  rw [indicesBefore_eq, Script.lastAtomBefore?]
  cases ((Script.ofText text).atomsBefore offset).length with
  | zero => exact iff_of_true rfl (Set.eq_empty_of_forall_notMem fun _ => Nat.not_lt_zero _)
  | succ last =>
    apply iff_of_false
    · intro nothing
      cases nothing
    · exact Set.Nonempty.ne_empty ⟨last, Nat.lt_succ_self last⟩

/-! ## Keywords -/

/-- Bisection finds the keyword at an offset. -/
lemma searchKeyword_eq :
    (Script.ofText text).searchKeyword offset = some ((Script.ofText text).keywordAt offset) := by
  rw [Script.searchKeyword, bisectLeft_atoms, Script.keywordAt]
  cases length : ((Script.ofText text).atomsBefore (offset + 1)).length with
  | zero =>
    rw [List.length_eq_zero_iff.1 length]
    rfl
  | succ index =>
    obtain ⟨atom, here, last⟩ := getElem?_of_length_filter (pairwise_atomStarts text) length
    rw [Script.atomsBefore, last]
    dsimp only
    rw [here, Option.map_some]

/-- A word is the keyword that it spells. -/
lemma occurrence?_of_mem_words {word : Word} (mem : word ∈ (Script.ofText text).scan.words) :
    (Atom.word word).occurrence? = word.spelled? := by
  rw [Atom.occurrence?, keyword_eq_of_mem_words mem, Word.spelled?]
  split <;> rfl

/-- Parentheses are no keywords, so it does not matter whether words or atoms are looked at. -/
lemma keywordsOver_eq_filterMap :
    (Script.ofText text).keywordsOver offset
      = ((Script.ofText text).scan.atoms.filter fun atom =>
          atom.start ≤ offset ∧ offset < atom.stop).filterMap Atom.occurrence? := by
  rw [Script.keywordsOver, ← filterMap_word?_atoms, List.filter_filterMap, List.filterMap_filterMap,
    List.filterMap_filter]
  apply List.filterMap_congr
  intro atom mem
  cases atom with
  | word word =>
    rw [occurrence?_of_mem_words (word_mem_atoms.1 mem)]
    show (Option.filter _ (some word)).bind _ = _
    rw [Option.filter_some]
    exact apply_ite (Option.bind · Word.spelled?) _ _ _
  | opening start partner => exact (ite_self none).symm
  | closing start partner => exact (ite_self none).symm

/-- At most one keyword covers an offset. -/
lemma keywordsOver_eq :
    (Script.ofText text).keywordsOver offset = ((Script.ofText text).keywordAt offset).toList := by
  have covering : (Script.ofText text).scan.atoms.filter (fun atom =>
        atom.start ≤ offset ∧ offset < atom.stop)
      = (((Script.ofText text).atomsBefore (offset + 1)).getLast?.filter fun atom =>
          atom.start ≤ offset ∧ offset < atom.stop).toList := by
    apply filter_eq_toList (ascending_atoms text)
    intro atom covers
    obtain ⟨start, stop⟩ := of_decide_eq_true covers
    exact ⟨Int.lt_add_one_of_le start, stop⟩
  rw [keywordsOver_eq_filterMap, covering, Script.keywordAt]
  cases last : ((Script.ofText text).atomsBefore (offset + 1)).getLast? with
  | none => rfl
  | some atom =>
    have start := of_decide_eq_true (List.mem_filter.1 (List.mem_of_getLast? last)).2
    dsimp only
    by_cases passed : atom.stop ≤ offset
    · have outside : ¬ (atom.start ≤ offset ∧ offset < atom.stop) :=
        fun covers => Int.not_lt.2 passed covers.2
      rw [if_pos passed, Option.filter_some, if_neg (by rwa [decide_eq_true_eq])]
      rfl
    · have covers : atom.start ≤ offset ∧ offset < atom.stop :=
        ⟨Int.le_of_lt_add_one start, Int.not_le.1 passed⟩
      rw [if_neg passed, Option.filter_some, if_pos (by rwa [decide_eq_true_eq])]
      rfl

/-! ## Lines -/

omit offset in
/-- Lines are listed by their starts. -/
lemma pairwise_linesFrom (start : Nat) (all : List (List Char)) :
    (linesFrom start all).Pairwise fun line line' => line.start ≤ line'.start := by
  induction all generalizing start with
  | nil => exact .nil
  | cons row more ih =>
    refine .cons ?_ (ih _)
    intro line mem
    obtain ⟨_, _, _, bound⟩ := exists_of_mem_linesFrom mem
    show start ≤ line.start
    omega

/-- A clamped offset lies in the text. -/
lemma clamp_le_length (text : List Char) (offset : Int) :
    (Script.ofText text).clamp offset ≤ text.length :=
  Nat.min_le_right _ _

/-- The lines up to that of an offset are those that start no later. -/
lemma length_filter_lines :
    ((Script.ofText text).lines.filter fun line =>
      line.start ≤ (Script.ofText text).clamp offset).length
        = (Script.ofText text).lineOf offset + 1 := by
  have count := length_filter_linesFrom 0 (clamp_le_length text offset)
  rw [Nat.zero_add] at count
  exact (Nat.sub_add_cancel (count ▸ Nat.succ_pos _)).symm

/-- Bisection finds the line of an offset. -/
lemma searchLine_eq :
    (Script.ofText text).searchLine offset = (Script.ofText text).lineOf offset := by
  have order : (Script.ofText text).lines.Pairwise fun line line' => line.start ≤ line'.start :=
    pairwise_linesFrom 0 (rows text)
  have count : bisectRight (Script.ofText text).lineStarts ((Script.ofText text).clamp offset)
      = (Script.ofText text).lineOf offset + 1 := by
    rw [Script.lineStarts, bisectRight_map order, ← length_filter_lines]
    congr 2
    funext line
    rw [decide_eq_decide]
    omega
  rw [Script.searchLine, count]
  omega

end

/-- Looking up by bisection finds what looking at all entries of a table finds. One comment or string
at most contains an offset, and one block keyword at most covers it, and these are found; so is the
last atom before it. -/
theorem lookups_by_bisection (text : List Char) (offset : Int) :
    ((Script.ofText text).searchRegion offset = some ((Script.ofText text).regionAt offset) ∧
      (Script.ofText text).scan.regions.filter (·.contains offset)
        = ((Script.ofText text).regionAt offset).toList) ∧
    ((Script.ofText text).searchAtom offset
        = ((Script.ofText text).lastAtomBefore? offset).elim (-1) Int.ofNat ∧
      (∀ index, (Script.ofText text).lastAtomBefore? offset = some index
        ↔ IsGreatest ((Script.ofText text).indicesBefore offset) index) ∧
      ((Script.ofText text).lastAtomBefore? offset = none
        ↔ (Script.ofText text).indicesBefore offset = ∅)) ∧
    (Script.ofText text).searchKeyword offset = some ((Script.ofText text).keywordAt offset) ∧
      (Script.ofText text).keywordsOver offset
        = ((Script.ofText text).keywordAt offset).toList :=
  ⟨⟨searchRegion_eq offset, filter_contains offset⟩,
    ⟨searchAtom_eq offset, fun _ => lastAtomBefore?_eq_some_iff offset,
      lastAtomBefore?_eq_none_iff offset⟩,
    searchKeyword_eq offset, keywordsOver_eq offset⟩

end KixScript

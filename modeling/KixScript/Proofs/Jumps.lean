import KixScript.Block.Navigation
import KixScript.Proofs.Atoms
import Mathlib.Order.Basic

/-!
# Jumps by functions

A jump passes over the places that are ahead of an offset, nearest first. The places stand in order,
so what is ahead of a place that was met is what comes behind it (`Course.met`), and nothing is ahead
of the limit. Hence two jumps in one direction add up, also where there are too few places
(`Course.jumpTo_add`), and a jump away from a place can be undone (`jumpTo_back`). Both hold for the
beginnings and for the ends of functions, in both directions (`jumps_compose`).
-/

namespace KixScript

/-! ## Places in order -/

section
variable {r : Int → Int → Prop} [DecidableRel r]

/-- The places that are ahead of an offset, where `r` is the order of the jump. -/
def placesAhead (r : Int → Int → Prop) [DecidableRel r] (places : List Nat) (offset : Int) :
    List Nat :=
  places.filter fun place : Nat => r offset place

variable (order : IsStrictOrder Int r) {place : Nat} {before behind : List Nat}
include order

/-- A place divides the others into those before it and those ahead of it. -/
lemma filter_divided
    (sorted : (before ++ place :: behind).Pairwise fun first second : Nat => r first second) :
    placesAhead r (before ++ place :: behind) place = behind ∧
      (before ++ place :: behind).filter (fun other : Nat => r other place) = before := by
  obtain ⟨_, rest, earlier⟩ := List.pairwise_append.1 sorted
  have later := (List.pairwise_cons.1 rest).1
  have here : ¬ r place place := irrefl_of r (place : Int)
  have front : ∀ other ∈ before, r other place := fun other mem =>
    earlier other mem place List.mem_cons_self
  constructor
  · have none_before : before.filter (fun other : Nat => r place other) = [] := by
      apply List.filter_eq_nil_iff.2
      intro other mem ahead
      exact asymm_of r (of_decide_eq_true ahead) (front other mem)
    have all_behind : behind.filter (fun other : Nat => r place other) = behind :=
      List.filter_eq_self.2 fun other mem => decide_eq_true (later other mem)
    rw [placesAhead, List.filter_append, none_before, List.nil_append,
      List.filter_cons_of_neg (by rwa [decide_eq_true_eq]), all_behind]
  · have all_before : before.filter (fun other : Nat => r other place) = before :=
      List.filter_eq_self.2 fun other mem => decide_eq_true (front other mem)
    have none_behind : behind.filter (fun other : Nat => r other place) = [] := by
      apply List.filter_eq_nil_iff.2
      intro other mem ahead
      exact asymm_of r (of_decide_eq_true ahead) (later other mem)
    rw [List.filter_append, all_before, List.filter_cons_of_neg (by rwa [decide_eq_true_eq]),
      none_behind, List.append_nil]

end

/-! ## Jumps add up -/

/-- What is ahead of each offset, up to a limit: what is ahead of a place that was met is what comes
behind it, and nothing is ahead of the limit. -/
structure Course (ahead : Int → List Nat) (limit : Nat) : Prop where
  met : ∀ {offset : Int} {index place : Nat}, (ahead offset)[index]? = some place →
    ahead place = (ahead offset).drop (index + 1)
  ends : ahead limit = []

/-- Sorted places make a course. -/
lemma course_of_sorted {r : Int → Int → Prop} [DecidableRel r] (order : IsStrictOrder Int r)
    {places : List Nat} {limit : Nat}
    (sorted : places.Pairwise fun first second : Nat => r first second)
    (bound : ∀ place ∈ places, ¬ r limit place) : Course (placesAhead r places) limit where
  met := by
    intro offset index place here
    have passed : r offset place :=
      of_decide_eq_true (List.mem_filter.1 (List.mem_of_getElem? here)).2
    have within : placesAhead r places place
        = placesAhead r (placesAhead r places offset) place := by
      rw [placesAhead, placesAhead, placesAhead, List.filter_filter]
      apply List.filter_congr
      intro other _
      by_cases ahead : r place other
      · rw [decide_eq_true ahead, decide_eq_true (trans_of r passed ahead), Bool.true_and]
      · rw [decide_eq_false ahead, Bool.false_and]
    have ahead_sorted : (placesAhead r places offset).Pairwise fun first second : Nat =>
        r first second := sorted.filter _
    obtain ⟨before, behind, split, length⟩ := exists_of_getElem? here
    have rest : (placesAhead r places offset).drop (index + 1) = behind := by
      rw [split, ← length, ← List.drop_drop, List.drop_left]
      rfl
    rw [split] at ahead_sorted
    rw [within, rest, split]
    exact (filter_divided order ahead_sorted).1
  ends := List.filter_eq_nil_iff.2 fun place mem ahead =>
    bound place mem (of_decide_eq_true ahead)

/-- A jump ends at the place that it counts to. -/
lemma jumpTo_of_some {places : List Nat} {count place : Nat} (limit : Nat)
    (here : places[count - 1]? = some place) : jumpTo places count limit = ⟨true, place⟩ := by
  rw [jumpTo, here]

/-- A jump beyond the last place ends at the limit. -/
lemma jumpTo_of_none {places : List Nat} {count : Nat} (limit : Nat)
    (nothing : places[count - 1]? = none) : jumpTo places count limit = ⟨false, limit⟩ := by
  rw [jumpTo, nothing]

/-- Two jumps are one, also if the first or the second one finds too few places. -/
lemma Course.jumpTo_add {ahead : Int → List Nat} {limit : Nat} (course : Course ahead limit)
    (offset : Int) {first second : Nat} (some_first : 0 < first) (some_second : 0 < second) :
    jumpTo (ahead (jumpTo (ahead offset) first limit).position) second limit
      = jumpTo (ahead offset) (first + second) limit := by
  cases here : (ahead offset)[first - 1]? with
  | some place =>
    have next : ((ahead offset).drop (first - 1 + 1))[second - 1]?
        = (ahead offset)[first + second - 1]? := by
      rw [List.getElem?_drop]
      congr 1
      omega
    rw [jumpTo_of_some limit here]
    show jumpTo (ahead place) second limit = _
    rw [course.met here, jumpTo, jumpTo, next]
  | none =>
    have short := List.getElem?_eq_none_iff.1 here
    have nothing : (ahead offset)[first + second - 1]? = none :=
      List.getElem?_eq_none (by omega)
    rw [jumpTo_of_none limit here, jumpTo_of_none limit nothing]
    show jumpTo (ahead limit) second limit = _
    rw [course.ends]
    exact jumpTo_of_none limit rfl

/-- A jump away from a place is undone by the jump over as many places in the other direction. -/
lemma jumpTo_back {r : Int → Int → Prop} [DecidableRel r] (order : IsStrictOrder Int r)
    {places : List Nat} {place count limit : Nat} {position : Int}
    (sorted : places.Pairwise fun first second : Nat => r first second) (mem : place ∈ places)
    (moved : jumpTo (placesAhead r places place) count limit = ⟨true, position⟩) (limit' : Nat) :
    jumpTo (places.filter fun other : Nat => r other position).reverse count limit'
      = ⟨true, place⟩ := by
  obtain ⟨before, behind, rfl⟩ := List.append_of_mem mem
  rw [(filter_divided order sorted).1] at moved
  cases here : behind[count - 1]? with
  | none =>
    rw [jumpTo_of_none limit here] at moved
    cases moved
  | some other =>
    rw [jumpTo_of_some limit here] at moved
    obtain rfl : (other : Int) = position := (Jump.mk.inj moved).2
    obtain ⟨between, rest, rfl, length⟩ := exists_of_getElem? here
    have parts : before ++ place :: (between ++ other :: rest)
        = (before ++ place :: between) ++ other :: rest := by
      rw [List.append_assoc, List.cons_append]
    rw [parts] at sorted ⊢
    rw [(filter_divided order sorted).2]
    apply jumpTo_of_some
    rw [List.reverse_append, List.reverse_cons, List.append_assoc,
      List.getElem?_append_right (by rw [List.length_reverse, length]), List.length_reverse, length,
      Nat.sub_self]
    rfl

/-- Forward is a strict order. -/
lemma strictOrder_forward : IsStrictOrder Int (· < ·) where
  irrefl := Int.lt_irrefl
  trans _ _ _ := Int.lt_trans

/-- Backward is a strict order. -/
lemma strictOrder_backward : IsStrictOrder Int (· > ·) where
  irrefl := Int.lt_irrefl
  trans _ _ _ first second := Int.lt_trans second first

namespace Script
variable {script : Script} {places : List Nat} (sorted : places.Pairwise (· < ·))

/-- A jump backward goes along the places in reverse. -/
lemma jump_backward (script : Script) (places : List Nat) (offset : Int) (count : Nat) :
    script.jump places offset false count
      = jumpTo (placesAhead (· > ·) places.reverse offset) count 0 := by
  rw [placesAhead, List.filter_reverse]
  rfl

include sorted

/-- Sorted places ascend. -/
lemma sorted_forward : places.Pairwise fun first second : Nat => (first : Int) < second :=
  sorted.imp fun {_ _} => Int.ofNat_lt.2

/-- In reverse, sorted places descend. -/
lemma sorted_backward : places.reverse.Pairwise fun first second : Nat => (first : Int) > second :=
  List.pairwise_reverse.2 (sorted_forward sorted)

/-- Two jumps in a row are one jump. -/
lemma jump_add (within : ∀ place ∈ places, place ≤ script.length) (offset : Int) (forward : Bool)
    {first second : Nat} (some_first : 0 < first) (some_second : 0 < second) :
    script.jump places (script.jump places offset forward first).position forward second
      = script.jump places offset forward (first + second) := by
  cases forward with
  | true =>
    have course : Course (placesAhead (· < ·) places) script.length :=
      course_of_sorted strictOrder_forward (sorted_forward sorted) fun place mem => by
        have bound := within place mem
        omega
    exact course.jumpTo_add offset some_first some_second
  | false =>
    have course : Course (placesAhead (· > ·) places.reverse) 0 :=
      course_of_sorted strictOrder_backward (sorted_backward sorted) fun place _ => by omega
    rw [jump_backward, jump_backward, jump_backward]
    exact course.jumpTo_add offset some_first some_second

/-- A jump that arrives can be undone. -/
lemma jump_back {place : Nat} (mem : place ∈ places) {forward : Bool} {count : Nat} {position : Int}
    (moved : script.jump places place forward count = ⟨true, position⟩) :
    script.jump places position (!forward) count = ⟨true, place⟩ := by
  cases forward with
  | true => exact jumpTo_back strictOrder_forward (sorted_forward sorted) mem moved 0
  | false =>
    rw [jump_backward] at moved
    have undone := jumpTo_back strictOrder_backward (sorted_backward sorted)
      (List.mem_reverse.2 mem) moved script.length
    rw [List.filter_reverse, List.reverse_reverse] at undone
    exact undone

end Script

/-! ## The places of functions -/

namespace Script

/-- Where the functions begin. -/
def beginnings (script : Script) : List Nat :=
  (script.occurrencesOf (.opener .function)).map Occurrence.start

/-- Where the functions end. -/
def endings (script : Script) : List Nat :=
  (script.occurrencesOf (.closer .function)).map Occurrence.stop

end Script

section
variable {text : List Char} {keyword : Keyword} {found : Occurrence}

/-- A keyword that is found is an atom. -/
lemma exists_atom_of_mem_occurrencesOf (mem : found ∈ (Script.ofText text).occurrencesOf keyword) :
    ∃ atom ∈ (Script.ofText text).scan.atoms, atom.occurrence? = some found ∧
      found.keyword = keyword := by
  obtain ⟨mem, same⟩ := List.mem_filter.1 mem
  obtain ⟨atom, mem, is_keyword⟩ := List.mem_filterMap.1 mem
  exact ⟨atom, mem, is_keyword, eq_of_beq same⟩

/-- The keyword that is found at an offset is one of its uses. -/
lemma mem_occurrencesOf {offset : Int} (here : (Script.ofText text).keywordAt offset = some found) :
    found ∈ (Script.ofText text).occurrencesOf found.keyword := by
  obtain ⟨atom, mem, is_keyword, _⟩ := exists_atom_of_keywordAt here
  exact List.mem_filter.2 ⟨List.mem_filterMap.2 ⟨atom, mem, is_keyword⟩, beq_self_eq_true _⟩

/-- A keyword has some text, which lies in the script. -/
lemma bounds_of_mem_occurrencesOf (mem : found ∈ (Script.ofText text).occurrencesOf keyword) :
    found.start < found.stop ∧ found.stop ≤ text.length := by
  obtain ⟨atom, mem, is_keyword, _⟩ := exists_atom_of_mem_occurrencesOf mem
  obtain ⟨start, stop⟩ := Atom.span_of_occurrence? is_keyword
  obtain ⟨piece, piece_mem, _, stop'⟩ := exists_piece_of_atom mem
  rw [start, stop]
  refine ⟨start_lt_stop_of_mem mem, ?_⟩
  rw [stop']
  exact stop_le_length_of_mem_pieces piece_mem

/-- The uses of a keyword stand in order and do not overlap. -/
lemma pairwise_occurrencesOf (text : List Char) (keyword : Keyword) :
    ((Script.ofText text).occurrencesOf keyword).Pairwise fun found found' =>
      found.stop ≤ found'.start := by
  apply List.Pairwise.filter
  apply List.Pairwise.filterMap _ _ (pairwise_atoms text)
  intro atom atom' order found here found' here'
  rw [(Atom.span_of_occurrence? here).2, (Atom.span_of_occurrence? here').1]
  exact order

/-- The beginnings of functions ascend. -/
lemma sorted_beginnings (text : List Char) : (Script.ofText text).beginnings.Pairwise (· < ·) := by
  apply List.pairwise_map.2
  refine (pairwise_occurrencesOf text _).imp_of_mem fun {found found'} mem _ order => ?_
  exact Nat.lt_of_lt_of_le (bounds_of_mem_occurrencesOf mem).1 order

/-- The ends of functions ascend. -/
lemma sorted_endings (text : List Char) : (Script.ofText text).endings.Pairwise (· < ·) := by
  apply List.pairwise_map.2
  refine (pairwise_occurrencesOf text _).imp_of_mem fun {found found'} _ mem order => ?_
  exact Nat.lt_of_le_of_lt order (bounds_of_mem_occurrencesOf mem).1

/-- Functions begin in the text. -/
lemma beginnings_le_length (text : List Char) :
    ∀ place ∈ (Script.ofText text).beginnings, place ≤ (Script.ofText text).length := by
  intro place mem
  obtain ⟨found, listed, rfl⟩ := List.mem_map.1 mem
  have bounds := bounds_of_mem_occurrencesOf listed
  exact Nat.le_trans (Nat.le_of_lt bounds.1) bounds.2

/-- Functions end in the text. -/
lemma endings_le_length (text : List Char) :
    ∀ place ∈ (Script.ofText text).endings, place ≤ (Script.ofText text).length := by
  intro place mem
  obtain ⟨found, listed, rfl⟩ := List.mem_map.1 mem
  exact (bounds_of_mem_occurrencesOf listed).2

end

/-! ## Counts with a sign -/

/-- Whether a jump by a count goes forward, where `upward` tells whether positive counts do. -/
def goesForward (upward : Bool) (count : Int) : Bool :=
  if upward then 0 < count else count < 0

namespace Script

/-- A jump over some places by a count with a sign. -/
def hop (script : Script) (places : List Nat) (upward : Bool) (offset count : Int) : Jump :=
  if count = 0 then { moved := true, position := offset }
  else script.jump places offset (goesForward upward count) count.natAbs

/-- To move to the beginning of a function is to hop along the beginnings. -/
lemma beginningOfFunction_eq (script : Script) :
    script.beginningOfFunction = script.hop script.beginnings false :=
  rfl

/-- To move to the end of a function is to hop along the ends. -/
lemma endOfFunction_eq (script : Script) :
    script.endOfFunction = script.hop script.endings true :=
  rfl

end Script

/-- Jumps by counts of one sign add up. -/
structure Composes (move : Int → Int → Jump) : Prop where
  ahead : ∀ offset first second : Int, 0 < first → 0 < second →
    move (move offset first).position second = move offset (first + second)
  back : ∀ offset first second : Int, 0 < first → 0 < second →
    move (move offset (-first)).position (-second) = move offset (-(first + second))

/-- Each jump away from a place is undone by the jump of the opposite count. -/
def ReturnsTo (move : Int → Int → Jump) (place : Int) : Prop :=
  ∀ count position, move place count = ⟨true, position⟩ → move position (-count) = ⟨true, place⟩

namespace Script
variable {script : Script} {places : List Nat} (sorted : places.Pairwise (· < ·))
include sorted

/-- Counts of one sign go in one direction, and so does their sum. -/
lemma hop_add (within : ∀ place ∈ places, place ≤ script.length) (upward : Bool) (offset : Int)
    {first second : Int} (same_sign : 0 < first ∧ 0 < second ∨ first < 0 ∧ second < 0) :
    script.hop places upward (script.hop places upward offset first).position second
      = script.hop places upward offset (first + second) := by
  have direction : goesForward upward first = goesForward upward (first + second) ∧
      goesForward upward second = goesForward upward (first + second) := by
    cases upward with
    | true => exact ⟨decide_eq_decide.2 (by omega), decide_eq_decide.2 (by omega)⟩
    | false => exact ⟨decide_eq_decide.2 (by omega), decide_eq_decide.2 (by omega)⟩
  have length : (first + second).natAbs = first.natAbs + second.natAbs := by omega
  rw [hop, hop, hop, if_neg (by omega), if_neg (by omega), if_neg (by omega), direction.1,
    direction.2, length]
  exact jump_add sorted within offset _ (by omega) (by omega)

/-- Hops of the same direction add up. -/
lemma composes_hop (within : ∀ place ∈ places, place ≤ script.length) (upward : Bool) :
    Composes (script.hop places upward) where
  ahead offset _ _ some_first some_second :=
    hop_add sorted within upward offset (.inl ⟨some_first, some_second⟩)
  back offset _ _ some_first some_second := by
    rw [Int.neg_add]
    exact hop_add sorted within upward offset (.inr ⟨by omega, by omega⟩)

/-- A hop from a place that arrives leads back. -/
lemma returnsTo_hop (upward : Bool) {place : Nat} (mem : place ∈ places) :
    ReturnsTo (script.hop places upward) place := by
  intro count position moved
  by_cases nowhere : count = 0
  · rw [nowhere] at moved ⊢
    cases moved
    rfl
  · have opposite : goesForward upward (-count) = !goesForward upward count := by
      cases upward with
      | true =>
        show decide (0 < -count) = !decide (0 < count)
        rw [← decide_not]
        exact decide_eq_decide.2 (by omega)
      | false =>
        show decide (-count < 0) = !decide (count < 0)
        rw [← decide_not]
        exact decide_eq_decide.2 (by omega)
    rw [hop, if_neg nowhere] at moved
    rw [hop, if_neg (by omega), Int.natAbs_neg, opposite]
    exact jump_back sorted mem moved

end Script

/-- Jumps to the beginnings and to the ends of functions add up in both directions. From a beginning or
an end, each jump of its kind that arrives can be undone. -/
theorem jumps_compose (text : List Char) :
    Composes (Script.ofText text).beginningOfFunction ∧ Composes (Script.ofText text).endOfFunction ∧
      ∀ offset found, (Script.ofText text).keywordAt offset = some found →
        (found.keyword = .opener .function →
          ReturnsTo (Script.ofText text).beginningOfFunction found.start) ∧
        (found.keyword = .closer .function →
          ReturnsTo (Script.ofText text).endOfFunction found.stop) := by
  rw [Script.beginningOfFunction_eq, Script.endOfFunction_eq]
  refine ⟨Script.composes_hop (sorted_beginnings text) (beginnings_le_length text) false,
    Script.composes_hop (sorted_endings text) (endings_le_length text) true, ?_⟩
  intro offset found here
  have mem := mem_occurrencesOf here
  constructor
  · intro begins
    rw [begins] at mem
    exact Script.returnsTo_hop (sorted_beginnings text) false (List.mem_map_of_mem mem)
  · intro ends
    rw [ends] at mem
    exact Script.returnsTo_hop (sorted_endings text) true (List.mem_map_of_mem mem)

/-- Three functions, two of them in one another. -/
def functionsText : List Char :=
  "function a Function b\nENDFUNCTION x.EndFunction endfunction ; Function\nFunction c".toList

/-- Jumps along the functions add up and lead back. -/
theorem jumps_of_functionsText :
    ((Script.ofText functionsText).beginningOfFunction
        ((Script.ofText functionsText).beginningOfFunction 99 1).position 3
      = (Script.ofText functionsText).beginningOfFunction 99 (1 + 3)) ∧
    (Script.ofText functionsText).keywordAt 3 = some ⟨.opener .function, 0, 8⟩ ∧
    (Script.ofText functionsText).beginningOfFunction 0 (-2) = ⟨true, 71⟩ ∧
    (Script.ofText functionsText).beginningOfFunction 71 (- -2) = ⟨true, 0⟩ ∧
    (Script.ofText functionsText).keywordAt 25 = some ⟨.closer .function, 22, 33⟩ ∧
    (Script.ofText functionsText).endOfFunction 33 1 = ⟨true, 59⟩ ∧
    (Script.ofText functionsText).endOfFunction 59 (-1) = ⟨true, 33⟩ := by
  obtain ⟨composes, _, returns⟩ := jumps_compose functionsText
  have begins : (Script.ofText functionsText).keywordAt 3 = some ⟨.opener .function, 0, 8⟩ := by
    decide +kernel
  have ends : (Script.ofText functionsText).keywordAt 25 = some ⟨.closer .function, 22, 33⟩ := by
    decide +kernel
  have away : (Script.ofText functionsText).beginningOfFunction 0 (-2) = ⟨true, 71⟩ := by
    decide +kernel
  have away' : (Script.ofText functionsText).endOfFunction 33 1 = ⟨true, 59⟩ := by
    decide +kernel
  exact ⟨composes.ahead 99 1 3 (by decide) (by decide), begins, away,
    (returns 3 _ begins).1 rfl _ _ away, ends, away', (returns 25 _ ends).2 rfl _ _ away'⟩

end KixScript

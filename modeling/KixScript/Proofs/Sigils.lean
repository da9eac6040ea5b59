import KixScript.Proofs.Cover

/-!
# Parts of a token and its sigils

The parts of a token stand one after another from its beginning to its end (`tiles_partsFrom`). No
head has a mark behind its first character that begins another one, so every such mark begins a head
(`parts_of_mark`), and what the head is follows from the mark and from the run of characters behind it.
Conversely a part holds no such mark behind its first character, and begins with the sigil of its class
(`Fragment.WellFormed`).
-/

namespace KixScript

/-- Parts that stand one after another between two offsets, none of them empty. -/
inductive Tiles : Nat → Nat → List Part → Prop where
  | nil (offset : Nat) : Tiles offset offset []
  | cons {part : Part} {parts : List Part} {stop : Nat} (nonempty : part.start < part.stop)
      (others : Tiles part.stop stop parts) :
    Tiles part.start stop (part :: parts)

/-- The part that a macro at an offset begins with, by the run of characters behind its sigil. -/
inductive MacroPart (offset : Nat) (run : List Char) : Part → Prop where
  | unknown (no_lead : ∀ name ∈ macroNames, ¬ name.toList <+: lower run) :
    MacroPart offset run ⟨offset, offset + 1 + run.length, .unclassified, .unknown⟩
  | known {name : String} (longest : LongestOf macroNames (lower run) name)
      (inside : name.length ≤ run.length) :
    MacroPart offset run ⟨offset, offset + 1 + name.length, .macroName, .head⟩

/-- The parts tile the token, every sigil and every `?` in it begins a part, and the part is the one
that the mark and the characters behind it call for. -/
structure TiledByMarks (token : List Char) (parts : List Part) : Prop where
  tiles : Tiles 0 token.length parts
  variable_names : ∀ offset, token[offset]? = some '$' →
    if token[offset + 1]? = some '$' then ⟨offset, offset + 1, .variableName, .read⟩ ∈ parts
    else ⟨offset, offset + 1 + (runBehind token offset).length, .variableName, .assign⟩ ∈ parts
  macro_names : ∀ offset, token[offset]? = some '@' →
    ∃ part ∈ parts, MacroPart offset (runBehind token offset) part ∧
      ∀ other ∈ parts, other.start = offset → other = part
  labels : ∀ offset, token[offset]? = some ':' →
    if token[offset + 1]?.any isUserChar then
      ⟨offset, offset + 1 + (runBehind token offset).length, .label, .name⟩ ∈ parts
    else ⟨offset, offset + 1, .punctuation, .name⟩ ∈ parts
  prints : ∀ offset, token[offset]? = some '?' → ⟨offset, offset + 1, .command, .name⟩ ∈ parts
  quiet : ∀ part ∈ parts, ∀ offset, part.start < offset → offset < part.stop →
    ∀ c ∈ token[offset]?, isSigil c = false ∧ c ≠ '?'
  sigils : ∀ part ∈ parts, ∀ c ∈ part.tokenClass.sigil?, token[part.start]? = some c
  unknown : ∀ part ∈ parts, part.role = .unknown → token[part.start]? = some '@'

/-! ## One part after another -/

namespace Tiles
variable {start stop : Nat} {parts : List Part} (tiles : Tiles start stop parts)
include tiles

/-- Parts start no earlier than what they tile. -/
lemma le_start : ∀ part ∈ parts, start ≤ part.start := by
  induction tiles with
  | nil offset => exact List.forall_mem_nil _
  | cons nonempty others ih =>
    refine List.forall_mem_cons.2 ⟨Nat.le_refl _, ?_⟩
    exact fun part mem => Nat.le_trans (Nat.le_of_lt nonempty) (ih part mem)

/-- No two parts begin at the same offset. -/
lemma eq_of_start {part part' : Part} (mem : part ∈ parts) (mem' : part' ∈ parts)
    (same : part.start = part'.start) : part = part' := by
  induction tiles with
  | nil offset => cases mem
  | cons nonempty others ih =>
    have later := others.le_start
    rcases List.mem_cons.1 mem with rfl | inside
    · rcases List.mem_cons.1 mem' with rfl | inside'
      · rfl
      · have beyond := later part' inside'
        omega
    · rcases List.mem_cons.1 mem' with rfl | inside'
      · have beyond := later part inside
        omega
      · exact ih inside inside'

end Tiles

/-- Fragments that are not empty tile their text. -/
lemma tiles_partsFrom {fragments : List Fragment}
    (nonempty : ∀ fragment ∈ fragments, fragment.text ≠ []) (start : Nat) :
    Tiles start (start + (Fragment.textOf fragments).length) (partsFrom start fragments) := by
  induction fragments generalizing start with
  | nil => exact .nil start
  | cons fragment rest ih =>
    obtain ⟨first, others⟩ := List.forall_mem_cons.1 nonempty
    have tiles := ih others (start + fragment.text.length)
    rw [Nat.add_assoc, ← List.length_append, ← Fragment.textOf_cons] at tiles
    refine @Tiles.cons ⟨start, _, fragment.tokenClass, fragment.role⟩ _ _ ?_ tiles
    exact Nat.lt_add_of_pos_right (List.length_pos_iff.2 first)

/-- A part is that of a fragment, behind those before it. -/
lemma exists_of_mem_partsFrom {start : Nat} {fragments : List Fragment} {part : Part}
    (mem : part ∈ partsFrom start fragments) :
    ∃ before fragment behind, fragments = before ++ fragment :: behind ∧
      part = ⟨start + (Fragment.textOf before).length,
        start + (Fragment.textOf before).length + fragment.text.length,
        fragment.tokenClass, fragment.role⟩ := by
  induction fragments generalizing start with
  | nil => cases mem
  | cons first rest ih =>
    rw [partsFrom] at mem
    rcases List.mem_cons.1 mem with rfl | mem
    · exact ⟨[], first, rest, rfl, rfl⟩
    · obtain ⟨before, fragment, behind, rfl, rfl⟩ := ih mem
      refine ⟨first :: before, fragment, behind, rfl, ?_⟩
      rw [Fragment.textOf_cons, List.length_append, Nat.add_assoc start]

/-- A token is split where its fragments are. -/
lemma token_split {place : Surroundings} {token : List Char} {before behind : List Fragment}
    {fragment : Fragment} (same : fragments place token = before ++ fragment :: behind) :
    token = Fragment.textOf before ++ (fragment.text ++ Fragment.textOf behind) := by
  rw [← Fragment.textOf_cons, Fragment.textOf, Fragment.textOf, ← List.flatMap_append, ← same,
    ← Fragment.textOf, fragments_text]

/-- A part is a fragment of its token, and the characters of the fragment stand in the part. -/
lemma exists_of_mem_classify {place : Surroundings} {token : List Char} {part : Part}
    (mem : part ∈ classify place token) :
    ∃ fragment ∈ fragments place token, part.tokenClass = fragment.tokenClass ∧
      part.role = fragment.role ∧ part.stop = part.start + fragment.text.length ∧
      ∀ index < fragment.text.length, token[part.start + index]? = fragment.text[index]? := by
  obtain ⟨before, fragment, behind, same, rfl⟩ := exists_of_mem_partsFrom mem
  refine ⟨fragment, same ▸ List.mem_append_cons_self, rfl, rfl, rfl, ?_⟩
  intro index bound
  rw [token_split same, Nat.zero_add, List.getElem?_append_right (Nat.le_add_right _ _),
    Nat.add_sub_cancel_left, List.getElem?_append_left bound]

/-- A part starts with the first character of its fragment. -/
lemma getElem?_start {place : Surroundings} {token : List Char} {part : Part}
    (mem : part ∈ classify place token) :
    ∃ fragment ∈ fragments place token, part.tokenClass = fragment.tokenClass ∧
      part.role = fragment.role ∧ token[part.start]? = fragment.text.head? := by
  obtain ⟨fragment, inside, same_class, same_role, _, chars⟩ := exists_of_mem_classify mem
  have some_text := (Fragment.wellFormed_of_mem_fragments inside).nonempty
  refine ⟨fragment, inside, same_class, same_role, ?_⟩
  rw [List.head?_eq_getElem?, ← chars 0 (List.length_pos_iff.2 some_text), Nat.add_zero]

/-! ## One head after another -/

/-- A mark that begins a head begins one of the heads of its token. -/
lemma parts_of_mark {c : Char} (begins : beginsHead c = true) {place : Surroundings}
    {token front rest : List Char} (same : token = front ++ c :: rest) (start : Nat) :
    ∃ place', ∀ part ∈ partsFrom (start + front.length) (Fragment.ofHead place' c rest).1,
      part ∈ partsFrom start (fragments place token) := by
  fun_induction fragments place token generalizing front start with
  | case1 => exact absurd same (List.append_ne_nil_of_right_ne_nil _ (List.cons_ne_nil _ _)).symm
  | case2 place d behind ih =>
    rw [partsFrom_append]
    cases front with
    | nil =>
      obtain ⟨rfl, rfl⟩ := List.cons.inj same
      exact ⟨place, fun part mem => List.mem_append_left _ mem⟩
    | cons e front =>
      -- The mark is not in the first head, where only characters stand that begin none.
      obtain ⟨f, run, text, quiet⟩ := (Fragment.isHead_ofHead place d behind).exists_cons
      have whole := Fragment.ofHead_append place d behind
      rw [text, same, List.cons_append, List.cons_append] at whole
      have beyond : ∃ middle, front = run ++ middle ∧
          (Fragment.ofHead place d behind).2 = middle ++ c :: rest := by
        rcases List.append_eq_append_iff.1 (List.cons.inj whole).2 with
          ⟨middle, front_eq, rest_eq⟩ | ⟨middle, run_eq, rest_eq⟩
        · exact ⟨middle, front_eq, rest_eq⟩
        · cases middle with
          | nil => exact ⟨[], by rw [run_eq, List.append_nil, List.append_nil], rest_eq.symm⟩
          | cons g middle =>
            obtain ⟨rfl, -⟩ := List.cons.inj rest_eq
            have silent := quiet c (run_eq ▸ List.mem_append_cons_self)
            rw [begins] at silent
            cases silent
      obtain ⟨middle, rfl, rest_eq⟩ := beyond
      obtain ⟨place', inside⟩ := ih rest_eq (start + (f :: run).length)
      refine ⟨place', fun part mem => List.mem_append_right _ ?_⟩
      rw [text]
      apply inside
      rw [Nat.add_assoc, ← List.length_append]
      exact mem

section
variable {place : Surroundings} {token : List Char} {offset : Nat} {c : Char}

/-- A mark in a token begins a head. -/
lemma parts_at_mark (begins : beginsHead c = true) (at_offset : token[offset]? = some c) :
    ∃ place', ∀ part ∈ partsFrom offset (Fragment.ofHead place' c (token.drop (offset + 1))).1,
      part ∈ classify place token := by
  obtain ⟨bound, rfl⟩ := List.getElem?_eq_some_iff.1 at_offset
  have same : token = token.take offset ++ token[offset] :: token.drop (offset + 1) := by
    rw [← List.drop_eq_getElem_cons, List.take_append_drop]
  obtain ⟨place', inside⟩ := @parts_of_mark _ begins place _ _ _ same 0
  rw [Nat.zero_add, List.length_take_of_le (Nat.le_of_lt bound)] at inside
  exact ⟨place', inside⟩

/-- A mark and a run behind it are one character longer than the run. -/
lemma add_length_run (offset : Nat) (c : Char) (run : List Char) :
    offset + (c :: run).length = offset + 1 + run.length := by
  rw [List.length_cons]
  omega

/-- A character of a name comes next if there is a run behind. -/
lemma any_isUserChar_iff (token : List Char) (offset : Nat) :
    token[offset + 1]?.any isUserChar = true ↔ runBehind token offset ≠ [] := by
  rw [runBehind, ← List.head?_drop]
  cases token.drop (offset + 1) with
  | nil => exact ⟨fun user => absurd user Bool.false_ne_true, fun some_text => absurd rfl some_text⟩
  | cons d rest =>
    rw [List.takeWhile_cons]
    split
    · rename_i user
      exact ⟨fun _ => List.cons_ne_nil _ _, fun _ => user⟩
    · rename_i no_user
      exact ⟨fun user => absurd user no_user, fun some_text => absurd rfl some_text⟩

/-- A dollar sign begins a variable, up to the next one. -/
lemma variable_at (at_offset : token[offset]? = some '$') :
    if token[offset + 1]? = some '$' then
      ⟨offset, offset + 1, .variableName, .read⟩ ∈ classify place token
    else ⟨offset, offset + 1 + (runBehind token offset).length, .variableName, .assign⟩
      ∈ classify place token := by
  obtain ⟨place', inside⟩ := parts_at_mark rfl at_offset
  rw [Fragment.ofHead, if_neg (by decide), if_pos rfl, List.head?_drop] at inside
  split
  · rename_i again
    rw [if_pos again] at inside
    exact inside _ List.mem_cons_self
  · rename_i last
    rw [if_neg last] at inside
    rw [← add_length_run offset '$']
    exact inside _ List.mem_cons_self

/-- A colon begins a label, or is punctuation if no name comes behind it. -/
lemma label_at (at_offset : token[offset]? = some ':') :
    if token[offset + 1]?.any isUserChar then
      ⟨offset, offset + 1 + (runBehind token offset).length, .label, .name⟩ ∈ classify place token
    else ⟨offset, offset + 1, .punctuation, .name⟩ ∈ classify place token := by
  obtain ⟨place', inside⟩ := parts_at_mark rfl at_offset
  rw [Fragment.ofHead, if_neg (by decide), if_neg (by decide), if_pos rfl, ← runBehind] at inside
  split
  · rename_i named
    rw [if_neg (mt List.isEmpty_iff.1 ((any_isUserChar_iff token offset).1 named))] at inside
    rw [← add_length_run offset ':']
    exact inside _ List.mem_cons_self
  · rename_i unnamed
    have nothing : runBehind token offset = [] :=
      not_not.1 (mt (any_isUserChar_iff token offset).2 unnamed)
    rw [nothing, if_pos List.isEmpty_nil] at inside
    exact inside _ List.mem_cons_self

/-- A question mark is a command. -/
lemma print_at (at_offset : token[offset]? = some '?') :
    ⟨offset, offset + 1, .command, .name⟩ ∈ classify place token := by
  obtain ⟨place', inside⟩ := parts_at_mark rfl at_offset
  rw [Fragment.ofHead, if_neg (by decide), if_neg (by decide), if_neg (by decide), if_pos rfl] at inside
  exact inside _ List.mem_cons_self

/-- An at sign begins a macro, or something unknown. -/
lemma macro_at (at_offset : token[offset]? = some '@') :
    ∃ part ∈ classify place token, MacroPart offset (runBehind token offset) part := by
  obtain ⟨place', inside⟩ := parts_at_mark rfl at_offset
  rw [Fragment.ofHead, if_pos rfl, ← runBehind] at inside
  have shape := Fragment.macroHead_ofMacro (runBehind token offset)
  generalize runBehind token offset = run at inside shape
  generalize Fragment.ofMacro run = fragments at inside shape
  cases shape with
  | unknown no_lead =>
    refine ⟨_, inside _ List.mem_cons_self, ?_⟩
    rw [add_length_run]
    exact .unknown no_lead
  | known longest length =>
    refine ⟨_, inside _ List.mem_cons_self, ?_⟩
    rw [add_length_run, length]
    exact .known longest (Nat.le_of_eq length.symm)
  | trailing longest length some_dropped =>
    refine ⟨_, inside _ List.mem_cons_self, ?_⟩
    rw [add_length_run, length]
    refine .known longest ?_
    rw [← length, List.length_append]
    exact Nat.le_add_right _ _

end

/-- The parts of a token tile it, and its sigils and print commands are those that begin a part. -/
theorem classify_tiled_by_marks (place : Surroundings) (token : List Char) :
    TiledByMarks token (classify place token) := by
  have tiles : Tiles 0 token.length (classify place token) := by
    have nonempty := fun fragment (mem : fragment ∈ fragments place token) =>
      (Fragment.wellFormed_of_mem_fragments mem).nonempty
    have tiles := tiles_partsFrom nonempty 0
    rwa [fragments_text, Nat.zero_add] at tiles
  refine ⟨tiles, fun _ => variable_at, ?_, fun _ => label_at, fun _ => print_at, ?_, ?_, ?_⟩
  · intro offset at_offset
    obtain ⟨part, mem, is_macro_part⟩ := @macro_at place _ _ at_offset
    have start : part.start = offset := by
      cases is_macro_part with
      | _ => rfl
    exact ⟨part, mem, is_macro_part, fun other mem' start' =>
      tiles.eq_of_start mem' mem (start'.trans start.symm)⟩
  · intro part mem offset behind_first inside c at_offset
    obtain ⟨fragment, fragment_mem, _, _, stop, chars⟩ := exists_of_mem_classify mem
    obtain ⟨index, rfl⟩ := Nat.exists_eq_add_of_lt behind_first
    rw [Option.mem_def, Nat.add_assoc, chars (index + 1) (by omega), ← List.getElem?_tail] at at_offset
    have quiet := (Fragment.wellFormed_of_mem_fragments fragment_mem).quiet c
      (List.mem_of_getElem? at_offset)
    rwa [beginsHead, Bool.or_eq_false_iff, beq_eq_false_iff_ne] at quiet
  · intro part mem c is_sigil
    obtain ⟨fragment, inside, same_class, _, start⟩ := getElem?_start mem
    rw [start]
    exact (Fragment.wellFormed_of_mem_fragments inside).sigil c (same_class ▸ is_sigil)
  · intro part mem is_unknown
    obtain ⟨fragment, inside, _, same_role, start⟩ := getElem?_start mem
    rw [start]
    exact (Fragment.wellFormed_of_mem_fragments inside).unknown (same_role ▸ is_unknown)

end KixScript

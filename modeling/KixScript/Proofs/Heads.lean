import KixScript.Proofs.Spelling
import KixScript.Token
import Mathlib.Data.List.TakeWhile
import Mathlib.Order.Basic

/-!
# Heads of tokens

The longest macro at the head of a run is found by trying all of them (`Kept.run`), and it decides what
the fragments of a macro are (`Fragment.macroHead_ofMacro`). `Fragment.isHead_ofHead` says once what the
head of a token can be, with all that is known of the characters in it and behind it. No head has a
sigil behind its first character (`Fragment.IsHead.exists_cons`), and every fragment begins with the
sigil of its class (`Fragment.wellFormed_of_mem_fragments`).
-/

namespace KixScript

/-! ## The longest macro -/

/-- The longest of some names that stand at the head of a text. -/
structure LongestOf (names : List String) (text : List Char) (name : String) : Prop where
  mem : name ∈ names
  leads : name.toList <+: text
  longest : ∀ other ∈ names, other.toList <+: text → other.length ≤ name.length

/-- What is kept of the names that have been tried. -/
inductive Kept (names : List String) (text : List Char) : Option String → Prop where
  | nothing (no_lead : ∀ name ∈ names, ¬ name.toList <+: text) : Kept names text none
  | best {name : String} (longest : LongestOf names text name) : Kept names text (some name)

/-- One more name is tried. -/
def keepLonger (text : List Char) (best : Option String) (known : String) : Option String :=
  if known.toList.isPrefixOf text && best.all (·.length < known.length) then some known else best

namespace Kept
variable {tried : List String} {text : List Char} {best : Option String}

/-- One name more is kept if it is longer. -/
lemma step (kept : Kept tried text best) (known : String) :
    Kept (tried ++ [known]) text (keepLonger text best known) := by
  -- The name kept so far is the longest, so the new one has to be compared with no other.
  rw [keepLonger]
  split
  · rename_i better
    rw [Bool.and_eq_true, List.isPrefixOf_iff_prefix] at better
    refine .best ⟨List.mem_append_right _ List.mem_cons_self, better.1, ?_⟩
    intro other mem leads
    rcases List.mem_append.1 mem with mem | mem
    · cases kept with
      | nothing no_lead => exact absurd leads (no_lead other mem)
      | best longest =>
        have shorter := of_decide_eq_true better.2
        exact Nat.le_of_lt (Nat.lt_of_le_of_lt (longest.longest other mem leads) shorter)
    · rw [List.mem_singleton.1 mem]
  · rename_i no_better
    rw [Bool.and_eq_true, List.isPrefixOf_iff_prefix, not_and] at no_better
    cases kept with
    | nothing no_lead =>
      refine .nothing fun name mem leads => ?_
      rcases List.mem_append.1 mem with mem | mem
      · exact no_lead name mem leads
      · rw [List.mem_singleton.1 mem] at leads
        exact no_better leads rfl
    | best longest =>
      refine .best ⟨List.mem_append_left _ longest.mem, longest.leads, ?_⟩
      intro other mem leads
      rcases List.mem_append.1 mem with mem | mem
      · exact longest.longest other mem leads
      · rw [List.mem_singleton.1 mem] at leads ⊢
        exact Nat.le_of_not_lt fun longer => no_better leads (decide_eq_true longer)

/-- Name by name, the longest one is kept. -/
lemma run (kept : Kept tried text best) (names : List String) :
    Kept (tried ++ names) text (names.foldl (keepLonger text) best) := by
  induction names generalizing tried best with
  | nil => rwa [List.append_nil]
  | cons known names ih =>
    rw [List.foldl_cons, ← List.singleton_append, ← List.append_assoc]
    exact ih (kept.step known)

end Kept

/-- The longest macro at the head of a run is found. -/
lemma kept_longestMacro? (run : List Char) : Kept macroNames (lower run) (longestMacro? run) :=
  (Kept.nothing (List.forall_mem_nil _) : Kept [] (lower run) none).run macroNames

/-- A text leads itself. -/
lemma ofList_leads (text : List Char) : (String.ofList text).toList <+: text :=
  ⟨[], by rw [String.toList_ofList, List.append_nil]⟩

/-- No macro ends in an `i` or holds a combining dot. -/
lemma no_dot_of_macro {name : String} (mem : name ∈ macroNames) :
    '\u0307' ∉ name.toList ∧ name.toList.getLast? ≠ some 'i' := by
  have every : (macroNames.all fun name =>
      !name.toList.contains '\u0307' && name.toList.getLast? != some 'i') = true := by
    decide
  simpa using List.all_eq_true.1 every name mem

section
variable {run : List Char} {name : String} (longest : LongestOf macroNames (lower run) name)
include longest

/-- The characters of a run that spell its longest macro, and those behind them. -/
lemma LongestOf.exists_split :
    ∃ front back, run = front ++ back ∧ front.length = name.length ∧
      lower run = name.toList ++ lower back := by
  obtain ⟨more, same⟩ := longest.leads
  obtain ⟨no_dot, no_i⟩ := no_dot_of_macro longest.mem
  obtain ⟨front, back, split, length, spelled, rfl⟩ := exists_of_lower_eq same.symm no_dot no_i
  exact ⟨front, back, split, length.trans String.length_toList, same.symm⟩

/-- A run is a macro if nothing is left of it behind its longest macro. -/
lemma LongestOf.whole_iff :
    String.ofList (lower run) ∈ macroNames ↔ run.drop name.length = [] := by
  obtain ⟨front, back, rfl, length, spelled⟩ := longest.exists_split
  rw [← length, List.drop_left]
  constructor
  · intro whole
    have bound := longest.longest _ whole (ofList_leads _)
    rw [← String.length_toList, ← String.length_toList, String.toList_ofList, spelled,
      List.length_append] at bound
    exact lower_eq_nil_iff.1 (List.length_eq_zero_iff.1 (by omega))
  · rintro rfl
    rw [spelled, lower_nil, List.append_nil, String.ofList_toList]
    exact longest.mem

end

/-! ## Runs of characters of a name -/

/-- A character of a name differs from one that is not of names. -/
lemma ne_of_isUserChar {c d : Char} (user : isUserChar c = true) (no_user : isUserChar d = false) :
    c ≠ d := by
  rintro rfl
  rw [user] at no_user
  cases no_user

/-- The longest run of characters of a name behind the character at an offset. -/
def runBehind (token : List Char) (offset : Nat) : List Char :=
  (token.drop (offset + 1)).takeWhile isUserChar

/-- A longest run of characters of a name: none stands behind it. -/
structure IsRun (run behind : List Char) : Prop where
  user : ∀ c ∈ run, isUserChar c = true
  stop : ∀ c ∈ behind.head?, isUserChar c = false

/-- Taking characters of names gives a longest run. -/
lemma isRun_takeWhile (text : List Char) :
    IsRun (text.takeWhile isUserChar) (text.dropWhile isUserChar) := by
  refine ⟨fun _ => List.mem_takeWhile_imp, ?_⟩
  intro c mem
  have no_user := List.head?_dropWhile_not isUserChar text
  rw [Option.mem_def.1 mem] at no_user
  exact no_user

/-- A longest run is what is taken. -/
lemma IsRun.takeWhile_append {run behind : List Char} (is_run : IsRun run behind) :
    (run ++ behind).takeWhile isUserChar = run := by
  have nothing : behind.takeWhile isUserChar = [] := by
    cases behind with
    | nil => rfl
    | cons c more => exact List.takeWhile_cons_of_neg (ne_true_of_eq_false (is_run.stop c rfl))
  rw [List.takeWhile_append_of_pos is_run.user, nothing, List.append_nil]

/-! ## What a head can be -/

namespace Fragment

/-- The fragments of a macro, by what the run behind its sigil begins with. -/
inductive MacroHead : List Char → List Fragment → Prop where
  | unknown {run : List Char} (no_lead : ∀ name ∈ macroNames, ¬ name.toList <+: lower run) :
    MacroHead run [⟨'@' :: run, .unclassified, .unknown⟩]
  | known {run : List Char} {name : String} (longest : LongestOf macroNames (lower run) name)
      (length : run.length = name.length) :
    MacroHead run [⟨'@' :: run, .macroName, .head⟩]
  | trailing {spelled dropped : List Char} {name : String}
      (longest : LongestOf macroNames (lower (spelled ++ dropped)) name)
      (length : spelled.length = name.length) (some_dropped : dropped ≠ []) :
    MacroHead (spelled ++ dropped)
      [⟨'@' :: spelled, .macroName, .head⟩, ⟨dropped, .macroTrailing, .trailing⟩]

/-- A macro is read by the longest name at its head. -/
lemma macroHead_ofMacro (run : List Char) : MacroHead run (ofMacro run) := by
  have kept := kept_longestMacro? run
  rw [ofMacro]
  cases found : longestMacro? run with
  | none =>
    rw [found] at kept
    cases kept with
    | nothing no_lead => exact .unknown no_lead
  | some name =>
    rw [found] at kept
    cases kept with
    | best longest =>
      obtain ⟨spelled, dropped, rfl, length, _⟩ := longest.exists_split
      dsimp only
      rw [← length, List.take_left, List.drop_left]
      cases dropped with
      | nil =>
        have known := MacroHead.known longest (by rw [List.append_nil, length])
        rwa [List.append_nil] at known ⊢
      | cons c dropped => exact .trailing longest length (List.cons_ne_nil _ _)

/-- The heads that are one fragment, by what they begin with. -/
inductive SimpleHead (place : Surroundings) : Fragment → List Char → Prop where
  | read {behind : List Char} (again : behind.head? = some '$') :
    SimpleHead place ⟨['$'], .variableName, .read⟩ behind
  | assign {run behind : List Char} (is_run : IsRun run behind)
      (last : (run ++ behind).head? ≠ some '$') :
    SimpleHead place ⟨'$' :: run, .variableName, .assign⟩ behind
  | colon {behind : List Char} (unnamed : ∀ c ∈ behind.head?, isUserChar c = false) :
    SimpleHead place ⟨[':'], .punctuation, .name⟩ behind
  | label {run behind : List Char} (is_run : IsRun run behind) (named : run ≠ []) :
    SimpleHead place ⟨':' :: run, .label, .name⟩ behind
  | print (behind : List Char) : SimpleHead place ⟨['?'], .command, .name⟩ behind
  | name {c : Char} {run behind : List Char} (is_run : IsRun (c :: run) behind) :
    SimpleHead place ⟨c :: run, classOfName place (c :: run), .name⟩ behind
  | marks {c : Char} {run behind : List Char} (other : ∀ d ∈ c :: run, isWordChar d = false) :
    SimpleHead place ⟨c :: run, .punctuation, .name⟩ behind

/-- The fragments that a token can begin with, and what can stand behind them. -/
inductive IsHead (place : Surroundings) : List Fragment → List Char → Prop where
  | ofMacro {run behind : List Char} {fragments : List Fragment} (is_run : IsRun run behind)
      (shape : MacroHead run fragments) :
    IsHead place fragments behind
  | simple {fragment : Fragment} {behind : List Char} (is_simple : SimpleHead place fragment behind) :
    IsHead place [fragment] behind

/-- What is read at the head of a token is a head. -/
lemma isHead_ofHead (place : Surroundings) (c : Char) (rest : List Char) :
    IsHead place (ofHead place c rest).1 (ofHead place c rest).2 := by
  have is_run := isRun_takeWhile rest
  unfold ofHead
  dsimp only
  split
  · exact .ofMacro is_run (macroHead_ofMacro _)
  rename_i no_macro
  split
  · split
    · rename_i again
      exact .simple (.read again)
    · rename_i last
      refine .simple (.assign is_run ?_)
      rwa [List.takeWhile_append_dropWhile]
  rename_i no_variable
  split
  · split
    · rename_i unnamed
      have same := List.takeWhile_append_dropWhile (p := isUserChar) (l := rest)
      rw [List.isEmpty_iff.1 unnamed, List.nil_append] at same
      refine .simple (.colon ?_)
      rw [← same]
      exact is_run.stop
    · rename_i named
      exact .simple (.label is_run (mt List.isEmpty_iff.2 named))
  rename_i no_label
  split
  · exact .simple (.print _)
  rename_i no_print
  split
  · rename_i user
    exact .simple (.name ⟨List.forall_mem_cons.2 ⟨user, is_run.user⟩, is_run.stop⟩)
  · rename_i no_user
    refine .simple (.marks (List.forall_mem_cons.2 ⟨?_, ?_⟩))
    · simp [isWordChar, isSigil, no_user, no_macro, no_variable, no_label, no_print]
    · intro d mem
      simpa using List.mem_takeWhile_imp mem

/-- A character of a name begins a name. -/
lemma ofHead_of_isUserChar {c : Char} (user : isUserChar c = true) (place : Surroundings)
    (rest : List Char) :
    ofHead place c rest
      = ([⟨c :: rest.takeWhile isUserChar, classOfName place (c :: rest.takeWhile isUserChar), .name⟩],
          rest.dropWhile isUserChar) := by
  have other : ∀ d, isUserChar d = false → c ≠ d := fun d => ne_of_isUserChar user
  rw [ofHead, if_neg (other '@' (by decide)), if_neg (other '$' (by decide)),
    if_neg (other ':' (by decide)), if_neg (other '?' (by decide)), if_pos user]

/-- What holds of the fragments of every head holds of all fragments of a token. -/
lemma forall_mem_fragments {P : Fragment → Prop}
    (step : ∀ place head behind, IsHead place head behind → ∀ fragment ∈ head, P fragment)
    (place : Surroundings) (token : List Char) : ∀ fragment ∈ fragments place token, P fragment := by
  fun_induction fragments place token with
  | case1 => exact List.forall_mem_nil _
  | case2 place c rest ih =>
    exact List.forall_mem_append.2 ⟨step _ _ _ (isHead_ofHead place c rest), ih⟩

end Fragment

/-! ## What a head holds -/

/-- The marks that begin a head wherever they stand in a token. -/
def beginsHead (c : Char) : Bool :=
  isSigil c || c == '?'

/-- No character of a name begins another head. -/
lemma not_beginsHead_of_isUserChar {c : Char} (user : isUserChar c = true) : beginsHead c = false := by
  have other : ∀ d, isUserChar d = false → c ≠ d := fun d => ne_of_isUserChar user
  simp [beginsHead, isSigil, other '@' (by decide), other '$' (by decide), other ':' (by decide),
    other '?' (by decide)]

/-- No character outside of words begins a head. -/
lemma not_beginsHead_of_not_isWordChar {c : Char} (other : isWordChar c = false) :
    beginsHead c = false := by
  rw [isWordChar, Bool.or_assoc, Bool.or_eq_false_iff] at other
  exact other.2

/-- Inside of a run no head begins. -/
lemma IsRun.quiet {run behind : List Char} (is_run : IsRun run behind) :
    ∀ c ∈ run, beginsHead c = false :=
  fun c mem => not_beginsHead_of_isUserChar (is_run.user c mem)

/-- The sigil that every fragment of a class begins with. -/
def TokenClass.sigil? : TokenClass → Option Char
  | macroName => some '@'
  | variableName => some '$'
  | label => some ':'
  | _ => none

namespace Fragment
variable {place : Surroundings} {fragment : Fragment} {fragments : List Fragment} {behind : List Char}

/-- The fragments of a macro are its sigil and its run. -/
lemma MacroHead.textOf_eq {run : List Char} (shape : MacroHead run fragments) :
    textOf fragments = '@' :: run := by
  cases shape with
  | unknown no_lead => exact List.append_nil _
  | known longest length => exact List.append_nil _
  | trailing longest length some_dropped =>
    rw [textOf_cons, textOf_cons, List.cons_append]
    exact congrArg _ (congrArg _ (List.append_nil _))

/-- No mark behind the first character of a head begins another one. -/
lemma IsHead.exists_cons (is_head : IsHead place fragments behind) :
    ∃ c run, textOf fragments = c :: run ∧ ∀ d ∈ run, beginsHead d = false := by
  cases is_head with
  | ofMacro is_run shape => exact ⟨_, _, shape.textOf_eq, is_run.quiet⟩
  | simple is_simple =>
    rw [textOf_cons, textOf, List.flatMap_nil, List.append_nil]
    cases is_simple with
    | read again => exact ⟨_, _, rfl, List.forall_mem_nil _⟩
    | assign is_run last => exact ⟨_, _, rfl, is_run.quiet⟩
    | colon unnamed => exact ⟨_, _, rfl, List.forall_mem_nil _⟩
    | label is_run named => exact ⟨_, _, rfl, is_run.quiet⟩
    | print => exact ⟨_, _, rfl, List.forall_mem_nil _⟩
    | name is_run => exact ⟨_, _, rfl, (List.forall_mem_cons.1 is_run.quiet).2⟩
    | marks other =>
      exact ⟨_, _, rfl, fun d mem =>
        not_beginsHead_of_not_isWordChar (other d (List.mem_cons_of_mem _ mem))⟩

/-- What holds of every fragment of a token: its class is one of its sigil, and no mark behind its
first character begins another head. -/
structure WellFormed (fragment : Fragment) : Prop where
  nonempty : fragment.text ≠ []
  sigil : ∀ c ∈ fragment.tokenClass.sigil?, fragment.text.head? = some c
  unknown : fragment.role = .unknown → fragment.text.head? = some '@'
  declared : fragment.tokenClass = .functionDeclaration → ∀ c ∈ fragment.text, isUserChar c = true
  quiet : ∀ c ∈ fragment.text.tail, beginsHead c = false

/-- The class of a name has no sigil. -/
lemma sigil?_classOfName (place : Surroundings) (name : List Char) :
    (classOfName place name).sigil? = none := by
  unfold classOfName
  repeat' split
  all_goals rfl

/-- A fragment that is a head by itself is well formed. -/
lemma SimpleHead.wellFormed (is_simple : SimpleHead place fragment behind) : fragment.WellFormed := by
  obtain ⟨c, run, same, quiet⟩ := (IsHead.simple is_simple).exists_cons
  rw [textOf_cons, textOf, List.flatMap_nil, List.append_nil] at same
  refine ⟨same ▸ List.cons_ne_nil _ _, ?_, ?_, ?_, by rwa [same]⟩
  · cases is_simple with
    | read again => exact fun _ => id
    | assign is_run last => exact fun _ => id
    | label is_run named => exact fun _ => id
    | name is_run =>
      rw [sigil?_classOfName]
      rintro d ⟨⟩
    | _ => rintro d ⟨⟩
  · cases is_simple with
    | _ => rintro ⟨⟩
  · cases is_simple with
    | name is_run => exact fun _ => is_run.user
    | _ => rintro ⟨⟩

/-- The fragments of a macro are well formed. -/
lemma MacroHead.wellFormed {run : List Char} (is_run : IsRun run behind)
    (shape : MacroHead run fragments) : ∀ fragment ∈ fragments, fragment.WellFormed := by
  cases shape with
  | unknown no_lead =>
    refine List.forall_mem_singleton.2 ⟨List.cons_ne_nil _ _, ?_, fun _ => rfl, ?_, is_run.quiet⟩
    · rintro c ⟨⟩
    · rintro ⟨⟩
  | known longest length =>
    refine List.forall_mem_singleton.2 ⟨List.cons_ne_nil _ _, fun _ => id, ?_, ?_, is_run.quiet⟩
    · rintro ⟨⟩
    · rintro ⟨⟩
  | trailing longest length some_dropped =>
    obtain ⟨spelled_quiet, dropped_quiet⟩ := List.forall_mem_append.1 is_run.quiet
    refine List.forall_mem_cons.2 ⟨?_, List.forall_mem_singleton.2 ?_⟩
    · refine ⟨List.cons_ne_nil _ _, fun _ => id, ?_, ?_, spelled_quiet⟩
      · rintro ⟨⟩
      · rintro ⟨⟩
    · refine ⟨some_dropped, ?_, ?_, ?_, fun c mem => dropped_quiet c (List.mem_of_mem_tail mem)⟩
      · rintro c ⟨⟩
      · rintro ⟨⟩
      · rintro ⟨⟩

/-- Every fragment of a token is well formed. -/
lemma wellFormed_of_mem_fragments {token : List Char}
    (mem : fragment ∈ KixScript.fragments place token) : fragment.WellFormed := by
  refine forall_mem_fragments ?_ place token fragment mem
  intro place head behind is_head
  cases is_head with
  | ofMacro is_run shape => exact shape.wellFormed is_run
  | simple is_simple => exact List.forall_mem_singleton.2 is_simple.wellFormed

end Fragment

end KixScript

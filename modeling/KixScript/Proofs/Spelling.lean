import KixScript.Character
import KixScript.Keyword
import KixScript.Lexicon
import Mathlib.Data.List.Basic
import Mathlib.Tactic.Common

/-!
# How names are spelled

Names are compared in lower case, and the lower case of a text can be longer than the text: one capital
letter becomes an `i` and a combining dot. But no macro ends in an `i`, and none holds the dot. So what
a text spells at its head has as many characters in the text as in the macro (`exists_of_lower_eq`).
What spells a keyword is made of letters (`isUserChar_of_ofText?`).
-/

namespace KixScript

/-- A character that becomes a small letter is a letter. -/
lemma isAlpha_of_isLower_toLower {c : Char} (lower : c.toLower.isLower = true) :
    c.isAlpha = true := by
  show (c.isUpper || c.isLower) = true
  rw [Bool.or_eq_true]
  by_cases upper : c.val ≥ 'A'.val ∧ c.val ≤ 'Z'.val
  · exact .inl (decide_eq_true upper)
  · have same : c.toLower = c := dif_neg upper
    rw [same] at lower
    exact .inr lower

/-- Letters are characters of names. -/
lemma isUserChar_of_isAlpha {c : Char} (letter : c.isAlpha = true) : isUserChar c = true := by
  have ascii : c.toNat < 0x80 := by
    have upper : c.val ≤ 'z'.val := by
      rcases Bool.or_eq_true_iff.1 letter with upper | lower
      · exact UInt32.le_trans (of_decide_eq_true upper).2 (by decide)
      · exact of_decide_eq_true (Bool.and_eq_true_iff.1 lower).2
    exact Nat.lt_of_le_of_lt (UInt32.le_iff_toNat_le.1 upper) (by decide)
  have alphanumeric : isAlphanumeric c = true := by
    rw [isAlphanumeric, if_pos ascii]
    show (c.isAlpha || c.isDigit) = true
    rw [letter, Bool.true_or]
  rw [isUserChar, alphanumeric]
  rfl

/-- Characters of names are characters of words. -/
lemma isWordChar_of_isUserChar {c : Char} (user : isUserChar c = true) : isWordChar c = true := by
  rw [isWordChar, user]
  rfl

/-- Keywords are spelled with small letters, and without a `k`. -/
lemma Keyword.letters (keyword : Keyword) :
    ∀ c ∈ keyword.word.toList, c.isLower = true ∧ c ≠ 'k' := by
  have every : (all.all fun keyword => keyword.word.toList.all fun c => c.isLower && c != 'k') = true := by
    decide
  intro c mem
  have letter := List.all_eq_true.1 (List.all_eq_true.1 every keyword keyword.mem_all) c mem
  simpa using letter

/-- A text spells the keyword that is its lower case. -/
lemma Keyword.ofText?_eq_some_iff {text : List Char} {keyword : Keyword} :
    Keyword.ofText? text = some keyword ↔ keyword.word.toList = lower text := by
  constructor
  · intro spells
    have found := List.find?_some spells
    rw [beq_iff_eq] at found
    rw [found, String.toList_ofList]
  · intro same
    have only : all.find? (fun other => other.word == keyword.word) = some keyword := by
      rcases keyword with kind | kind | branch
      · cases kind <;> rfl
      · cases kind <;> rfl
      · cases branch <;> rfl
    rw [Keyword.ofText?, ← same, String.ofList_toList]
    exact only

/-- Every block keyword is a command. -/
lemma Keyword.mem_commandNames (keyword : Keyword) : keyword.word ∈ commandNames := by
  have every : (all.all fun keyword => commandNames.contains keyword.word) = true := by decide
  exact List.contains_iff_mem.1 (List.all_eq_true.1 every keyword keyword.mem_all)

/-- What spells a keyword is made of characters of a name. -/
lemma isUserChar_of_ofText? {word : List Char} {keyword : Keyword}
    (spells : Keyword.ofText? word = some keyword) : ∀ c ∈ word, isUserChar c = true := by
  intro c mem
  have letters : ∀ d ∈ lowerChar c, d.isLower = true ∧ d ≠ 'k' := by
    intro d here
    apply keyword.letters
    rw [Keyword.ofText?_eq_some_iff.1 spells]
    exact List.mem_flatMap.2 ⟨c, mem, here⟩
  unfold lowerChar at letters
  split at letters
  · exact absurd rfl (letters 'k' List.mem_cons_self).2
  split at letters
  · exact absurd (letters '\u0307' (by simp)).1 (by decide)
  · exact isUserChar_of_isAlpha (isAlpha_of_isLower_toLower (letters _ List.mem_cons_self).1)

/-- A block keyword is spelled with characters of words. -/
lemma isWordChar_of_ofText? {word : List Char} {keyword : Keyword}
    (spells : Keyword.ofText? word = some keyword) : ∀ c ∈ word, isWordChar c = true :=
  fun c mem => isWordChar_of_isUserChar (isUserChar_of_ofText? spells c mem)

/-- In small letters a character is one character, or an `i` and a dot above it. -/
lemma lowerChar_cases (c : Char) : (∃ d, lowerChar c = [d]) ∨ lowerChar c = ['i', '\u0307'] := by
  unfold lowerChar
  split
  · exact .inl ⟨_, rfl⟩
  split
  · exact .inr rfl
  · exact .inl ⟨_, rfl⟩

/-- Only the empty text is empty in small letters. -/
lemma lower_eq_nil_iff {text : List Char} : lower text = [] ↔ text = [] := by
  cases text with
  | nil => exact ⟨fun _ => rfl, fun _ => rfl⟩
  | cons c rest =>
    rw [lower_cons]
    rcases lowerChar_cases c with ⟨d, single⟩ | double
    · simp [single]
    · simp [double]

/-- The characters of a text whose lower case is at the head of that of the text. -/
lemma exists_of_lower_eq {text name more : List Char} (same : lower text = name ++ more)
    (no_dot : '\u0307' ∉ name) (no_i : name.getLast? ≠ some 'i') :
    ∃ front back, text = front ++ back ∧ front.length = name.length ∧ lower front = name ∧
      lower back = more := by
  induction text generalizing name with
  | nil =>
    obtain ⟨rfl, rfl⟩ := List.append_eq_nil_iff.1 same.symm
    exact ⟨[], [], rfl, rfl, rfl, rfl⟩
  | cons c rest ih =>
    cases name with
    | nil => exact ⟨[], c :: rest, rfl, rfl, rfl, same⟩
    | cons d name =>
      rw [lower_cons] at same
      rcases lowerChar_cases c with ⟨e, single⟩ | double
      · rw [single, List.singleton_append, List.cons_append] at same
        obtain ⟨rfl, behind⟩ := List.cons.inj same
        have no_dot' : '\u0307' ∉ name := fun mem => no_dot (List.mem_cons_of_mem _ mem)
        have no_i' : name.getLast? ≠ some 'i' := by
          intro last
          apply no_i
          rw [List.getLast?_cons, last]
          rfl
        obtain ⟨front, back, rfl, length, spelled, left⟩ := ih behind no_dot' no_i'
        refine ⟨c :: front, back, rfl, congrArg (· + 1) length, ?_, left⟩
        rw [lower_cons, single, spelled]
        rfl
      · -- The two characters would be the last one of the name and the dot, or both in it.
        rw [double, List.cons_append, List.cons_append, List.cons_append] at same
        obtain ⟨rfl, behind⟩ := List.cons.inj same
        cases name with
        | nil => exact absurd rfl no_i
        | cons d name =>
          rw [List.cons_append] at behind
          rw [← (List.cons.inj behind).1] at no_dot
          exact absurd (List.mem_cons_of_mem _ List.mem_cons_self) no_dot

end KixScript

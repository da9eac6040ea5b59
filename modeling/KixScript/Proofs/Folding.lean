import KixScript.Highlight
import KixScript.Proofs.Atoms
import KixScript.Proofs.Spelling

/-!
# Folded texts

A text is `folded` by making its capital letters small. No class of characters that texts are cut by
tells the two cases of a letter apart (`CaseBlind`), so the lexemes of a folded text are the folded
lexemes (`lexemes_folded`). Names are compared in lower case anyway, so they are what they were, and
the pieces of the text are found in their old places (`placed_folded`), with the same parts
(`Piece.parts_folded`).
-/

namespace KixScript

/-! ## Small letters -/

/-- A capital letter becomes a small one. -/
lemma isLower_toLower {c : Char} (upper : c.isUpper = true) : c.toLower.isLower = true := by
  have bounds : c.val ≥ 'A'.val ∧ c.val ≤ 'Z'.val := of_decide_eq_true upper
  have moved : c.toLower.val = c.val + ('a'.val - 'A'.val) := congrArg Char.val (dif_pos bounds)
  have first : 65 ≤ c.val.toNat := UInt32.le_iff_toNat_le.1 bounds.1
  have last : c.val.toNat ≤ 90 := UInt32.le_iff_toNat_le.1 bounds.2
  have sum : c.toLower.val.toNat = c.val.toNat + 32 := by
    rw [moved, UInt32.toNat_add]
    exact Nat.mod_eq_of_lt (show c.val.toNat + 32 < 4294967296 by omega)
  apply Bool.and_eq_true_iff.2
  constructor
  · exact decide_eq_true (UInt32.le_iff_toNat_le.2 (show 97 ≤ c.toLower.val.toNat by omega))
  · exact decide_eq_true (UInt32.le_iff_toNat_le.2 (show c.toLower.val.toNat ≤ 122 by omega))

/-- What is no capital letter stays. -/
lemma toLower_of_not_isUpper {c : Char} (no_upper : c.isUpper = false) : c.toLower = c :=
  dif_neg (of_decide_eq_false no_upper)

/-- No small letter is a capital one. -/
lemma not_isUpper_of_isLower {c : Char} (lower : c.isLower = true) : c.isUpper = false := by
  have above : c.val ≥ 'a'.val := of_decide_eq_true (Bool.and_eq_true_iff.1 lower).1
  apply decide_eq_false
  rintro ⟨_, below⟩
  exact absurd (UInt32.le_trans above below) (by decide)

/-- A letter made small stays small. -/
lemma toLower_toLower (c : Char) : c.toLower.toLower = c.toLower := by
  cases upper : c.isUpper with
  | false => rw [toLower_of_not_isUpper upper, toLower_of_not_isUpper upper]
  | true => exact toLower_of_not_isUpper (not_isUpper_of_isLower (isLower_toLower upper))

/-- A character is its own small form, or both are letters. -/
lemma toLower_cases (c : Char) :
    c.toLower = c ∨ c.isAlpha = true ∧ c.toLower.isAlpha = true := by
  cases upper : c.isUpper with
  | false => exact .inl (toLower_of_not_isUpper upper)
  | true =>
    refine .inr ⟨Bool.or_eq_true_iff.2 (.inl upper), Bool.or_eq_true_iff.2 (.inr ?_)⟩
    exact isLower_toLower upper

/-- Nothing else becomes a character that is no letter. -/
lemma toLower_eq_iff {c d : Char} (no_letter : d.isAlpha = false) : c.toLower = d ↔ c = d := by
  rcases toLower_cases c with same | ⟨letter, letter'⟩
  · rw [same]
  · refine ⟨fun same => ?_, fun same => ?_⟩
    · rw [same, no_letter] at letter'
      cases letter'
    · rw [same, no_letter] at letter
      cases letter

/-- What is no letter stays. -/
lemma toLower_of_not_isAlpha {c : Char} (no_letter : c.isAlpha = false) : c.toLower = c :=
  (toLower_eq_iff no_letter).2 rfl

/-- A text with its capital letters made small. No letters but those of ASCII are changed. -/
def folded (text : List Char) : List Char :=
  text.map Char.toLower

/-- Two texts differ in the case of letters alone. -/
def SameLetters (text text' : List Char) : Prop :=
  folded text = folded text'

instance (text text' : List Char) : Decidable (SameLetters text text') :=
  inferInstanceAs (Decidable (folded text = folded text'))

@[simp] lemma folded_nil : folded [] = [] := rfl

/-- The first character is folded first. -/
@[simp] lemma folded_cons (c : Char) (rest : List Char) :
    folded (c :: rest) = c.toLower :: folded rest := rfl

/-- Both parts of a text are folded. -/
@[simp] lemma folded_append (front back : List Char) :
    folded (front ++ back) = folded front ++ folded back :=
  List.map_append

/-- Folding keeps the length. -/
@[simp] lemma length_folded (text : List Char) : (folded text).length = text.length :=
  List.length_map _

/-- A text without letters stays. -/
lemma folded_of_not_isAlpha {text : List Char} (no_letter : ∀ c ∈ text, c.isAlpha = false) :
    folded text = text := by
  induction text with
  | nil => rfl
  | cons c rest ih =>
    obtain ⟨first, more⟩ := List.forall_mem_cons.1 no_letter
    rw [folded_cons, toLower_of_not_isAlpha first, ih more]

/-! ## Classes of characters -/

/-- A class of characters that does not tell the cases of a letter apart. -/
def CaseBlind (p : Char → Bool) : Prop :=
  ∀ c, p c.toLower = p c

namespace CaseBlind
variable {p q : Char → Bool}

/-- To be a character that is no letter is blind to case. -/
lemma beq {d : Char} (no_letter : d.isAlpha = false) : CaseBlind (· == d) := by
  intro c
  apply Bool.eq_iff_iff.2
  rw [beq_iff_eq, beq_iff_eq]
  exact toLower_eq_iff no_letter

/-- Two tests that are blind to case are so together. -/
lemma or (first : CaseBlind p) (second : CaseBlind q) : CaseBlind fun c => p c || q c :=
  fun c => congrArg₂ Bool.or (first c) (second c)

/-- The opposite of a test that is blind to case is so too. -/
lemma not (blind : CaseBlind p) : CaseBlind fun c => !p c :=
  fun c => congrArg Bool.not (blind c)

/-- What is taken of a folded text is folded. -/
lemma takeWhile (blind : CaseBlind p) (text : List Char) :
    (folded text).takeWhile p = folded (text.takeWhile p) := by
  induction text with
  | nil => rfl
  | cons c rest ih =>
    cases inside : p c with
    | true =>
      rw [folded_cons, List.takeWhile_cons_of_pos ((blind c).trans inside),
        List.takeWhile_cons_of_pos inside, ih, folded_cons]
    | false =>
      have outside := (blind c).trans inside
      rw [folded_cons, List.takeWhile_cons_of_neg (ne_true_of_eq_false outside),
        List.takeWhile_cons_of_neg (ne_true_of_eq_false inside), folded_nil]

/-- What is left of a folded text is folded. -/
lemma dropWhile (blind : CaseBlind p) (text : List Char) :
    (folded text).dropWhile p = folded (text.dropWhile p) := by
  induction text with
  | nil => rfl
  | cons c rest ih =>
    cases inside : p c with
    | true =>
      rw [folded_cons, List.dropWhile_cons_of_pos ((blind c).trans inside),
        List.dropWhile_cons_of_pos inside, ih]
    | false =>
      have outside := (blind c).trans inside
      rw [folded_cons, List.dropWhile_cons_of_neg (ne_true_of_eq_false outside),
        List.dropWhile_cons_of_neg (ne_true_of_eq_false inside), folded_cons]

end CaseBlind

/-- Case does not matter to characters of names. -/
lemma caseBlind_isUserChar : CaseBlind isUserChar := by
  intro c
  rcases toLower_cases c with same | ⟨letter, letter'⟩
  · rw [same]
  · rw [isUserChar_of_isAlpha letter, isUserChar_of_isAlpha letter']

/-- Case does not matter to characters of words. -/
lemma caseBlind_isWordChar : CaseBlind isWordChar :=
  (caseBlind_isUserChar.or (((CaseBlind.beq rfl).or (.beq rfl)).or (.beq rfl))).or (.beq rfl)

/-- Case does not matter to blanks. -/
lemma caseBlind_isBlank : CaseBlind isBlank :=
  (CaseBlind.beq rfl).or (.beq rfl)

/-- Case does not matter to line ends. -/
lemma caseBlind_isLineEnd : CaseBlind isLineEnd :=
  (CaseBlind.beq rfl).or (.beq rfl)

/-- Case does not matter to quotes. -/
lemma caseBlind_isQuote : CaseBlind isQuote :=
  (CaseBlind.beq rfl).or (.beq rfl)

/-- Case does not matter to what ends punctuation. -/
lemma caseBlind_endsPunctuation : CaseBlind endsPunctuation :=
  (((((caseBlind_isBlank.or caseBlind_isLineEnd).or (.beq rfl)).or (.beq rfl)).or (.beq rfl)).or
    caseBlind_isQuote).or caseBlind_isWordChar

/-- Folding does not bring a character that is no letter to the front. -/
lemma head?_folded {text : List Char} {d : Char} (no_letter : d.isAlpha = false) :
    (folded text).head? = some d ↔ text.head? = some d := by
  cases text with
  | nil => exact .rfl
  | cons c rest =>
    rw [folded_cons, List.head?_cons, List.head?_cons, Option.some_inj, Option.some_inj]
    exact toLower_eq_iff no_letter

/-- Folding does not bring a character that is no letter to the end. -/
lemma getLast?_folded {text : List Char} {d : Char} (no_letter : d.isAlpha = false) :
    (folded text).getLast? = some d ↔ text.getLast? = some d := by
  rw [List.getLast?_eq_head?_reverse, List.getLast?_eq_head?_reverse, folded, ← List.map_reverse]
  exact head?_folded no_letter

/-- A block comment opens in any case. -/
lemma opensBlockComment_folded (c : Char) (rest : List Char) :
    opensBlockComment c.toLower (folded rest) = opensBlockComment c rest := by
  have star : ((folded rest).head? == some '*') = (rest.head? == some '*') := by
    apply Bool.eq_iff_iff.2
    rw [beq_iff_eq, beq_iff_eq]
    exact head?_folded rfl
  have slash : (c.toLower == '/') = (c == '/') := CaseBlind.beq rfl c
  rw [opensBlockComment, opensBlockComment, slash, star]

/-! ## Lexemes -/

/-- A run of punctuation is as long in any case. -/
lemma punctuationRun_folded (text : List Char) :
    punctuationRun (folded text) = (punctuationRun text).map folded folded := by
  induction text with
  | nil => rfl
  | cons c rest ih =>
    rw [folded_cons, punctuationRun, punctuationRun, caseBlind_endsPunctuation c,
      opensBlockComment_folded]
    split
    · rfl
    · rw [ih]
      rfl

/-- A mark without letters is found in any case. -/
lemma isPrefixOf_folded {mark : List Char} (no_letter : ∀ c ∈ mark, c.isAlpha = false)
    (text : List Char) : mark.isPrefixOf (folded text) = mark.isPrefixOf text := by
  induction mark generalizing text with
  | nil => rfl
  | cons d mark ih =>
    obtain ⟨first, more⟩ := List.forall_mem_cons.1 no_letter
    cases text with
    | nil => rfl
    | cons c rest =>
      have same : (d == c.toLower) = (d == c) := by
        rw [Bool.beq_comm, Bool.beq_comm (a := d)]
        exact CaseBlind.beq first c
      rw [folded_cons, List.isPrefixOf_cons_cons, List.isPrefixOf_cons_cons, same, ih more]

/-- A mark without letters stands in both texts at the same places. -/
lemma cutAfter?_folded {mark : List Char} (no_letter : ∀ c ∈ mark, c.isAlpha = false)
    (text : List Char) :
    cutAfter? mark (folded text) = (cutAfter? mark text).map (Prod.map folded folded) := by
  induction text with
  | nil => rfl
  | cons c rest ih =>
    have found := isPrefixOf_folded no_letter (c :: rest)
    rw [folded_cons] at found
    rw [folded_cons, cutAfter?, cutAfter?, found]
    split
    · rw [Option.map_some, Prod.map_apply, folded_of_not_isAlpha no_letter, ← folded_cons, folded,
        folded, List.map_drop]
    · rw [ih, Option.map_map, Option.map_map]
      rfl

namespace Lexeme

/-- A lexeme of the folded text. -/
def folded : Lexeme → Lexeme
  | space c => space c.toLower
  | word text => word (KixScript.folded text)
  | punctuation text => punctuation (KixScript.folded text)
  | opening => opening
  | closing => closing
  | region kind text closed => region kind (KixScript.folded text) closed

/-- The text of a folded lexeme is folded. -/
lemma text_folded (lexeme : Lexeme) : lexeme.folded.text = KixScript.folded lexeme.text := by
  cases lexeme <;> rfl

/-- A folded lexeme is as long. -/
lemma length_folded (lexeme : Lexeme) : lexeme.folded.length = lexeme.length := by
  rw [length, length, text_folded, KixScript.length_folded]

/-- A comment or string is as long in any case. -/
lemma enclosed_folded (kind : RegionKind) (delimiter : List Char) {mark : List Char}
    (no_letter : ∀ c ∈ mark, c.isAlpha = false) (rest : List Char) :
    enclosed kind (KixScript.folded delimiter) mark (KixScript.folded rest)
      = (enclosed kind delimiter mark rest).map folded KixScript.folded := by
  rw [enclosed, enclosed, cutAfter?_folded no_letter]
  cases cutAfter? mark rest with
  | none =>
    show (region kind _ false, []) = (region kind _ false, [])
    rw [folded_append]
  | some cut =>
    show (region kind _ true, _) = (region kind _ true, _)
    rw [folded_append]

/-- What a folded text begins with. -/
lemma first_folded (c : Char) (rest : List Char) :
    first c.toLower (KixScript.folded rest) = (first c rest).map folded KixScript.folded := by
  have comment : c.toLower = ';' ↔ c = ';' := toLower_eq_iff rfl
  have opens : c.toLower = '(' ↔ c = '(' := toLower_eq_iff rfl
  have closes : c.toLower = ')' ↔ c = ')' := toLower_eq_iff rfl
  unfold first
  rw [caseBlind_isQuote c, opensBlockComment_folded, caseBlind_isBlank c, caseBlind_isLineEnd c,
    caseBlind_isWordChar c]
  simp only [comment, opens, closes]
  split
  · rename_i quote
    have plain : c.isAlpha = false := by
      rcases Bool.or_eq_true_iff.1 quote with double | single
      · rw [beq_iff_eq.1 double]
        rfl
      · rw [beq_iff_eq.1 single]
        rfl
    have same := toLower_of_not_isAlpha plain
    have encloses := enclosed_folded .string [c] (List.forall_mem_singleton.2 plain) rest
    rw [folded_cons, folded_nil, same] at encloses
    rw [same]
    exact encloses
  split
  · exact enclosed_folded .lineComment [';'] (List.forall_mem_singleton.2 rfl) rest
  split
  · have tail : (KixScript.folded rest).tail = KixScript.folded rest.tail := List.map_tail.symm
    have no_letter : ∀ c ∈ ['*', '/'], c.isAlpha = false :=
      List.forall_mem_cons.2 ⟨rfl, List.forall_mem_singleton.2 rfl⟩
    rw [tail]
    exact enclosed_folded .blockComment ['/', '*'] no_letter rest.tail
  split
  · rfl
  split
  · rfl
  split
  · rfl
  split
  · rw [caseBlind_isWordChar.takeWhile, caseBlind_isWordChar.dropWhile]
    rfl
  · rw [punctuationRun_folded]
    rfl

end Lexeme

/-- The lexemes of a folded text are the folded lexemes of the text. -/
lemma lexemes_folded (text : List Char) :
    lexemes (folded text) = (lexemes text).map Lexeme.folded := by
  fun_induction lexemes text with
  | case1 => exact lexemes_nil
  | case2 c rest ih =>
    rw [folded_cons, lexemes_cons, Lexeme.first_folded, List.map_cons, ← ih]
    rfl

/-! ## Names -/

/-- A letter made small is the same in small letters. -/
lemma lowerChar_toLower (c : Char) : lowerChar c.toLower = lowerChar c := by
  have kelvin : c.toLower = '\u212a' ↔ c = '\u212a' := toLower_eq_iff (by decide)
  have dotted : c.toLower = '\u0130' ↔ c = '\u0130' := toLower_eq_iff (by decide)
  unfold lowerChar
  simp only [kelvin, dotted, toLower_toLower]

/-- Both texts have the same lower case, so they spell the same names. -/
lemma lower_folded (text : List Char) : lower (folded text) = lower text := by
  induction text with
  | nil => rfl
  | cons c rest ih => rw [folded_cons, lower_cons, lower_cons, lowerChar_toLower, ih]

/-- A keyword is known in any case. -/
lemma ofText?_folded (text : List Char) : Keyword.ofText? (folded text) = Keyword.ofText? text := by
  unfold Keyword.ofText?
  rw [lower_folded]

/-- A command is known in any case. -/
lemma isCommandName_folded (text : List Char) :
    isCommandName (folded text) = isCommandName text := by
  unfold isCommandName
  rw [lower_folded]

/-- A function is known in any case. -/
lemma isFunctionName_folded (text : List Char) :
    isFunctionName (folded text) = isFunctionName text := by
  unfold isFunctionName
  rw [lower_folded]

/-- A macro is known in any case. -/
lemma longestMacro?_folded (text : List Char) :
    longestMacro? (folded text) = longestMacro? text := by
  unfold longestMacro?
  rw [lower_folded]

/-! ## Pieces -/

/-- A word is the same keyword in any case. -/
lemma Cursor.keyword?_folded (cursor : Cursor) (word : List Char) :
    cursor.keyword? (folded word) = cursor.keyword? word := by
  unfold keyword?
  rw [ofText?_folded]

/-- A folded lexeme leads to a name if the lexeme does. -/
lemma Cursor.leadAfter_folded (cursor : Cursor) (lexeme : Lexeme) :
    cursor.leadAfter lexeme.folded = cursor.leadAfter lexeme := by
  cases lexeme with
  | word text =>
    show (if cursor.keyword? (folded text) = _ then _ else _) = _
    rw [keyword?_folded]
    rfl
  | space c =>
    show (if isBlank c.toLower && _ then _ else _) = _
    rw [caseBlind_isBlank c]
    rfl
  | _ => rfl

/-- A folded lexeme moves the cursor as the lexeme does. -/
lemma Cursor.advance_folded (cursor : Cursor) (lexeme : Lexeme) :
    cursor.advance lexeme.folded = cursor.advance lexeme := by
  have dot : (lexeme.folded.text.getLast? == some '.') = (lexeme.text.getLast? == some '.') := by
    apply Bool.eq_iff_iff.2
    rw [beq_iff_eq, beq_iff_eq, Lexeme.text_folded]
    exact getLast?_folded rfl
  have depth : depthAfter cursor.depth lexeme.folded = depthAfter cursor.depth lexeme := by
    cases lexeme <;> rfl
  rw [advance, advance, Lexeme.length_folded, depth, dot, leadAfter_folded]

/-- A piece of the folded text. -/
def Piece.folded (piece : Piece) : Piece :=
  { piece with lexeme := piece.lexeme.folded }

/-- Folded lexemes stand where the lexemes do. -/
lemma placed_folded (cursor : Cursor) (parts : List Lexeme) :
    placed cursor (parts.map Lexeme.folded) = (placed cursor parts).map Piece.folded := by
  induction parts generalizing cursor with
  | nil => rfl
  | cons lexeme rest ih =>
    rw [List.map_cons, placed_cons, placed_cons, List.map_cons, Cursor.advance_folded, ih]
    rfl

/-- Folded lexemes lead to the cursor that the lexemes lead to. -/
lemma after_folded (cursor : Cursor) (parts : List Lexeme) :
    (parts.map Lexeme.folded).foldl Cursor.advance cursor = parts.foldl Cursor.advance cursor := by
  induction parts generalizing cursor with
  | nil => rfl
  | cons lexeme rest ih =>
    rw [List.map_cons, List.foldl_cons, List.foldl_cons, Cursor.advance_folded, ih]

/-- A word of the folded text. -/
def Word.folded (word : Word) : Word :=
  { word with text := KixScript.folded word.text }

/-- An atom of the folded text. -/
def Atom.folded : Atom → Atom :=
  Atom.changed Word.folded id

namespace Piece

lemma start_folded (piece : Piece) : piece.folded.start = piece.start := rfl

/-- A folded piece stops where the piece does. -/
lemma stop_folded (piece : Piece) : piece.folded.stop = piece.stop :=
  congrArg (piece.cursor.offset + ·) piece.lexeme.length_folded

/-- A folded piece is the same comment or string. -/
lemma region?_folded (piece : Piece) : piece.folded.region? = piece.region? := by
  have stop := piece.stop_folded
  obtain ⟨lexeme, cursor⟩ := piece
  cases lexeme with
  | region kind body closed =>
    exact congrArg (fun stop => some (Region.mk kind cursor.offset stop closed)) stop
  | _ => rfl

/-- A folded piece is the same run of punctuation. -/
lemma punctuation?_folded (piece : Piece) : piece.folded.punctuation? = piece.punctuation? := by
  have stop := piece.stop_folded
  obtain ⟨lexeme, cursor⟩ := piece
  cases lexeme with
  | punctuation run => exact congrArg (fun stop => some (Span.mk cursor.offset stop)) stop
  | _ => rfl

/-- A folded piece is the folded word. -/
lemma word?_folded (piece : Piece) : piece.folded.word? = piece.word?.map Word.folded := by
  have stop := piece.stop_folded
  obtain ⟨lexeme, cursor⟩ := piece
  cases lexeme with
  | word token =>
    show some (Word.mk _ (Piece.stop _) _ _ _ (cursor.keyword? (KixScript.folded token))) = _
    rw [Cursor.keyword?_folded]
    exact congrArg (fun stop => some (Word.mk _ stop _ _ _ _)) stop
  | _ => rfl

/-- A folded piece is the folded atom. -/
lemma atom?_folded (piece : Piece) : piece.folded.atom? = piece.atom?.map Atom.folded := by
  have word := piece.word?_folded
  obtain ⟨lexeme, cursor⟩ := piece
  cases lexeme with
  | word token => exact congrArg (Option.map Atom.word) word
  | _ => rfl

/-- A folded piece has the depths of the piece. -/
lemma depths_folded (piece : Piece) : piece.folded.depths = piece.depths :=
  congrArg (List.replicate · piece.cursor.depth) piece.lexeme.length_folded

end Piece

/-! ## Fragments -/

namespace Fragment

/-- A fragment of the folded token. -/
def folded (fragment : Fragment) : Fragment :=
  { fragment with text := KixScript.folded fragment.text }

/-- The fragments of a folded macro are folded. -/
lemma ofMacro_folded (run : List Char) :
    ofMacro (KixScript.folded run) = (ofMacro run).map folded := by
  unfold ofMacro
  rw [longestMacro?_folded]
  cases longestMacro? run with
  | none => rfl
  | some known =>
    have front : (KixScript.folded run).take known.length
        = KixScript.folded (run.take known.length) := List.map_take.symm
    have back : (KixScript.folded run).drop known.length
        = KixScript.folded (run.drop known.length) := List.map_drop.symm
    dsimp only
    rw [front, back]
    cases run.drop known.length with
    | nil => rfl
    | cons c dropped => rfl

/-- A name has the same class in any case. -/
lemma classOfName_folded (place : Surroundings) (name : List Char) :
    classOfName place (KixScript.folded name) = classOfName place name := by
  unfold classOfName
  rw [isCommandName_folded, isFunctionName_folded]

/-- The head of a folded token is folded. -/
lemma ofHead_folded (place : Surroundings) (c : Char) (rest : List Char) :
    ofHead place c.toLower (KixScript.folded rest)
      = (ofHead place c rest).map (List.map folded) KixScript.folded := by
  have at_sign : c.toLower = '@' ↔ c = '@' := toLower_eq_iff rfl
  have dollar : c.toLower = '$' ↔ c = '$' := toLower_eq_iff rfl
  have colon : c.toLower = ':' ↔ c = ':' := toLower_eq_iff rfl
  have question : c.toLower = '?' ↔ c = '?' := toLower_eq_iff rfl
  have dollars : (KixScript.folded rest).head? = some '$' ↔ rest.head? = some '$' :=
    head?_folded rfl
  have no_run : (KixScript.folded (rest.takeWhile isUserChar)).isEmpty
      = (rest.takeWhile isUserChar).isEmpty := List.isEmpty_map
  have name := classOfName_folded place (c :: rest.takeWhile isUserChar)
  rw [folded_cons] at name
  unfold ofHead
  dsimp only
  rw [caseBlind_isUserChar.takeWhile, caseBlind_isUserChar.dropWhile, caseBlind_isUserChar c,
    caseBlind_isWordChar.not.takeWhile, caseBlind_isWordChar.not.dropWhile, no_run, name]
  simp only [at_sign, dollar, colon, question, dollars]
  split
  · rw [ofMacro_folded]
    rfl
  split
  · split <;> rfl
  split
  · split <;> rfl
  split
  · rfl
  split <;> rfl

end Fragment

/-- The fragments of a folded token are folded. -/
lemma fragments_folded (place : Surroundings) (token : List Char) :
    fragments place (folded token) = (fragments place token).map Fragment.folded := by
  fun_induction fragments place token with
  | case1 place => rw [folded_nil, fragments, List.map_nil]
  | case2 place c rest ih =>
    rw [folded_cons, fragments, Fragment.ofHead_folded, List.map_append, ← ih]
    rfl

/-- Folded fragments have the same parts. -/
lemma partsFrom_folded (start : Nat) (fragments : List Fragment) :
    partsFrom start (fragments.map Fragment.folded) = partsFrom start fragments := by
  induction fragments generalizing start with
  | nil => rfl
  | cons fragment rest ih =>
    have length : fragment.folded.text.length = fragment.text.length := length_folded _
    rw [List.map_cons, partsFrom, partsFrom, length, ih]
    rfl

/-- The fragments of a folded piece are folded. -/
lemma Piece.fragments_folded (piece : Piece) :
    piece.folded.fragments = piece.fragments.map Fragment.folded := by
  obtain ⟨lexeme, cursor⟩ := piece
  cases lexeme with
  | word token => exact KixScript.fragments_folded _ token
  | _ => rfl

/-- Highlighting does not tell the case of letters. -/
lemma Piece.parts_folded (piece : Piece) : piece.folded.parts = piece.parts := by
  rw [parts, parts, fragments_folded, partsFrom_folded, start_folded]

end KixScript

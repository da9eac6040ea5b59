import KixScript.Character

/-!
# Lexemes

A script is a sequence of lexemes: comments and strings, parentheses, words, runs of punctuation,
and the single blanks and line ends between them. Reading never fails: a comment or string that is
not closed reaches to the end of the text.

`lexemes_text` says that nothing is lost or added: the lexemes of a text, written one after another,
are the text.
-/

namespace KixScript

/-- The kinds of text that hold no code. -/
inductive RegionKind where
  | lineComment
  | blockComment
  | string
  deriving DecidableEq, Repr

/-- A smallest unit of a script. -/
inductive Lexeme where
  /-- A blank or a line end in code. -/
  | space (c : Char)
  /-- A longest run of word characters. -/
  | word (text : List Char)
  /-- A run of characters that mean nothing by themselves. -/
  | punctuation (text : List Char)
  /-- An opening parenthesis. -/
  | opening
  /-- A closing parenthesis. -/
  | closing
  /-- A comment or string with its delimiters; `closed` unless the text ends first. -/
  | region (kind : RegionKind) (text : List Char) (closed : Bool)
  deriving DecidableEq, Repr

namespace Lexeme

/-- The characters of a lexeme. -/
def text : Lexeme → List Char
  | space c => [c]
  | word text => text
  | punctuation text => text
  | opening => ['(']
  | closing => [')']
  | region _ text _ => text

/-- The number of characters of a lexeme. -/
def length (lexeme : Lexeme) : Nat :=
  lexeme.text.length

end Lexeme

/-- Splits a text just behind the first place where `mark` stands. -/
def cutAfter? (mark : List Char) : List Char → Option (List Char × List Char)
  | [] => none
  | c :: rest =>
    if mark.isPrefixOf (c :: rest) then some (mark, (c :: rest).drop mark.length)
    else (cutAfter? mark rest).map fun (before, behind) => (c :: before, behind)

/-- A cut loses nothing. -/
theorem append_of_cutAfter? {mark text before behind : List Char}
    (h : cutAfter? mark text = some (before, behind)) : before ++ behind = text := by
  induction text generalizing before behind with
  | nil => simp [cutAfter?] at h
  | cons c rest ih =>
    rw [cutAfter?] at h
    split at h
    · rename_i found
      obtain ⟨tail, same⟩ := List.isPrefixOf_iff_prefix.1 found
      obtain ⟨rfl, rfl⟩ := by simpa using h
      rw [← same, List.drop_left]
    · obtain ⟨⟨before', behind'⟩, cut, same⟩ := Option.map_eq_some_iff.1 h
      obtain ⟨rfl, rfl⟩ := by simpa using same
      simp [ih cut]

/-- Whether a block comment begins with `c` before `rest`. -/
def opensBlockComment (c : Char) (rest : List Char) : Bool :=
  c == '/' && rest.head? == some '*'

/-- Characters that a run of punctuation never holds. -/
def endsPunctuation (c : Char) : Bool :=
  isBlank c || isLineEnd c || c == '(' || c == ')' || c == ';' || isQuote c || isWordChar c

/-- The longest run of punctuation at the head of a text, and what follows it. -/
def punctuationRun : List Char → List Char × List Char
  | [] => ([], [])
  | c :: rest =>
    if endsPunctuation c || opensBlockComment c rest then ([], c :: rest)
    else (c :: (punctuationRun rest).1, (punctuationRun rest).2)

theorem punctuationRun_append (text : List Char) :
    (punctuationRun text).1 ++ (punctuationRun text).2 = text := by
  fun_induction punctuationRun text with
  | case1 => rfl
  | case2 => rfl
  | case3 c rest _ ih => simp [ih]

namespace Lexeme

/-- The comment or string that `delimiter` opens before `rest`. It reaches through the first `mark`,
or to the end of the text if there is none. -/
def enclosed (kind : RegionKind) (delimiter mark rest : List Char) : Lexeme × List Char :=
  match cutAfter? mark rest with
  | some (body, behind) => (region kind (delimiter ++ body) true, behind)
  | none => (region kind (delimiter ++ rest) false, [])

theorem enclosed_append (kind : RegionKind) (delimiter mark rest : List Char) :
    (enclosed kind delimiter mark rest).1.text ++ (enclosed kind delimiter mark rest).2
      = delimiter ++ rest := by
  unfold enclosed
  split
  · rename_i body behind cut
    simp [text, append_of_cutAfter? cut]
  · simp [text]

theorem enclosed_text_ne_nil {kind : RegionKind} {delimiter mark rest : List Char}
    (h : delimiter ≠ []) : (enclosed kind delimiter mark rest).1.text ≠ [] := by
  unfold enclosed
  split <;> simp [text, h]

/-- The lexeme that begins with `c`, and what follows it. -/
def first (c : Char) (rest : List Char) : Lexeme × List Char :=
  if isQuote c then enclosed .string [c] [c] rest
  else if c = ';' then enclosed .lineComment [';'] ['\n'] rest
  else if opensBlockComment c rest then enclosed .blockComment ['/', '*'] ['*', '/'] rest.tail
  else if c = '(' then (opening, rest)
  else if c = ')' then (closing, rest)
  else if isBlank c || isLineEnd c then (space c, rest)
  else if isWordChar c then (word (c :: rest.takeWhile isWordChar), rest.dropWhile isWordChar)
  else (punctuation (c :: (punctuationRun rest).1), (punctuationRun rest).2)

/-- A block comment begins with its two delimiter characters. -/
theorem eq_of_opensBlockComment {c : Char} {rest : List Char}
    (h : opensBlockComment c rest = true) : c = '/' ∧ rest = '*' :: rest.tail := by
  cases rest <;> simp_all [opensBlockComment]

theorem first_append (c : Char) (rest : List Char) :
    (first c rest).1.text ++ (first c rest).2 = c :: rest := by
  unfold first
  split
  · exact enclosed_append ..
  split
  · rename_i h
    subst h
    exact enclosed_append ..
  split
  · rename_i h
    obtain ⟨rfl, same⟩ := eq_of_opensBlockComment h
    rw [enclosed_append, same]
    rfl
  split
  · rename_i h
    simp [text, h]
  split
  · rename_i h
    simp [text, h]
  split
  · simp [text]
  split
  · simp [text, List.takeWhile_append_dropWhile]
  · simp [text, punctuationRun_append]

theorem first_text_ne_nil (c : Char) (rest : List Char) : (first c rest).1.text ≠ [] := by
  unfold first
  split
  · exact enclosed_text_ne_nil (by simp)
  split
  · exact enclosed_text_ne_nil (by simp)
  split
  · exact enclosed_text_ne_nil (by simp)
  split
  · simp [text]
  split
  · simp [text]
  split
  · simp [text]
  split <;> simp [text]

/-- Reading a lexeme leaves less to read. -/
theorem first_length_lt (c : Char) (rest : List Char) :
    (first c rest).2.length < (c :: rest).length := by
  have whole := congrArg List.length (first_append c rest)
  have some_text := List.length_pos_iff.2 (first_text_ne_nil c rest)
  rw [List.length_append] at whole
  omega

end Lexeme

/-- The lexemes of a text, in order. -/
def lexemes : List Char → List Lexeme
  | [] => []
  | c :: rest => (Lexeme.first c rest).1 :: lexemes (Lexeme.first c rest).2
termination_by text => text.length
decreasing_by exact Lexeme.first_length_lt c rest

@[simp] theorem lexemes_nil : lexemes [] = [] := by
  rw [lexemes]

theorem lexemes_cons (c : Char) (rest : List Char) :
    lexemes (c :: rest) = (Lexeme.first c rest).1 :: lexemes (Lexeme.first c rest).2 := by
  rw [lexemes]

/-- The lexemes of a text, written one after another, are the text. -/
theorem lexemes_text (text : List Char) : (lexemes text).flatMap Lexeme.text = text := by
  fun_induction lexemes text with
  | case1 => rfl
  | case2 c rest ih => rw [List.flatMap_cons, ih, Lexeme.first_append]

end KixScript

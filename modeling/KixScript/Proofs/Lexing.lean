import KixScript.Proofs.Views

/-!
# Lexing by index

A lexer goes through a text once, from one lexeme to the next. It reads characters by their offsets,
writes down the depth of parentheses for every character that it passes, and looks up the partner of a
closing parenthesis among the atoms before it. Here each of these accesses is by index, and one that
misses ends the lexing with `none`. None of them does: a lexeme is passed up to what follows it
(`readLexeme_eq`), so behind each lexeme the tables are those of the lexemes before (`step_behind`), and
the lexer ends with the scan of the text (`readScan_eq`).
-/

namespace KixScript

/-! ## Access by index -/

/-- The character at an offset, or nothing at the end of a text. -/
def peek (text : List Char) (offset : Nat) : Option (Option Char) :=
  if offset < text.length then text[offset]?.map some else some none

/-- Puts an entry into a table in the place of the one with an index. -/
def put {α : Type} (table : List α) (index : Nat) (entry : α) : Option (List α) :=
  if index < table.length then some (table.set index entry) else none

/-- Whether a block comment begins at an offset. -/
def commentAt (text : List Char) (offset : Nat) : Option Bool := do
  if (← peek text offset) = some '/' then return (← peek text (offset + 1)) == some '*'
  else return false

/-- Whether a `.` directly precedes an offset. -/
def dotBefore (text : List Char) (offset : Nat) : Option Bool :=
  if 0 < offset then text[offset - 1]?.map (· == '.') else some false

/-- Passes characters for as long as `goes` says so, and writes down the depth at each of them. -/
def pass (text : List Char) (depth : Nat) (goes : Nat → Option Bool) (offset : Nat)
    (depths : List Nat) : Option (Nat × List Nat) :=
  (goes offset).bind fun on =>
    if on then
      -- The character that is passed has to be there.
      if offset < text.length then
        (put depths offset depth).bind (pass text depth goes (offset + 1))
      else none
    else some (offset, depths)
termination_by text.length - offset

/-- Goes on up to an offset. -/
def upTo (stop offset : Nat) : Option Bool :=
  some (offset < stop)

/-- Goes on with the characters of a word. -/
def onWord (text : List Char) (offset : Nat) : Option Bool :=
  (peek text offset).map (·.any isWordChar)

/-- Goes on with the characters of a run of punctuation. -/
def onPunctuation (text : List Char) (offset : Nat) : Option Bool := do
  if (← peek text offset).all endsPunctuation then return false
  else return !(← commentAt text offset)

/-- Reads a lexeme from its first offset up to where `goes` stops. -/
def passAs (lexeme : List Char → Lexeme) (text : List Char) (depth : Nat) (goes : Nat → Option Bool)
    (start : Nat) (depths : List Nat) : Option (Lexeme × List Nat) := do
  let (stop, depths) ← pass text depth goes start depths
  return (lexeme ((text.drop start).take (stop - start)), depths)

/-- The offset behind the first mark from an offset on. -/
def markStop? (mark text : List Char) (offset : Nat) : Option Nat :=
  (cutAfter? mark (text.drop offset)).map fun cut => offset + cut.1.length

/-- Reads a comment or string, whose mark is looked for from `inside` on. -/
def passRegion (kind : RegionKind) (mark : List Char) (inside : Nat) (text : List Char) (depth : Nat)
    (start : Nat) (depths : List Nat) : Option (Lexeme × List Nat) :=
  let stop? := markStop? mark text inside
  passAs (.region kind · stop?.isSome) text depth (upTo (stop?.getD text.length)) start depths

/-- Reads the lexeme at an offset. -/
def readLexeme (text : List Char) (depth start : Nat) (depths : List Nat) :
    Option (Lexeme × List Nat) := do
  let c ← ← peek text start
  let comment ← commentAt text start
  if isQuote c then passRegion .string [c] (start + 1) text depth start depths
  else if c = ';' then passRegion .lineComment ['\n'] start text depth start depths
  -- What opens a block comment cannot close it as well.
  else if comment then passRegion .blockComment ['*', '/'] (start + 2) text depth start depths
  else if c = '(' then passAs (fun _ => .opening) text depth (upTo (start + 1)) start depths
  else if c = ')' then passAs (fun _ => .closing) text depth (upTo (start + 1)) start depths
  else if isBlank c || isLineEnd c then
    passAs (fun _ => .space c) text depth (upTo (start + 1)) start depths
  else if isWordChar c then passAs .word text depth (onWord text) start depths
  else passAs .punctuation text depth (onPunctuation text) start depths

/-- An atom that has found its partner. -/
def Atom.joined (partner : Nat) : Atom → Atom
  | .word w => .word w
  | .opening start _ => .opening start (some partner)
  | .closing start _ => .closing start (some partner)

/-- Adds an atom to those before it, and to the opening parentheses that wait. -/
def addAtom (atoms : List Atom) (waiting : List Nat) : Atom → Option (List Atom × List Nat)
  | .word w => some (atoms ++ [.word w], waiting)
  | .opening start _ => some (atoms ++ [.opening start none], atoms.length :: waiting)
  | .closing start _ =>
    match waiting with
    | [] => some (atoms ++ [.closing start none], [])
    | nearest :: outer => do
      let opener ← atoms[nearest]?
      let joined ← put atoms nearest (opener.joined atoms.length)
      return (joined ++ [.closing start (some nearest)], outer)

/-- A lexer on its way through a text. -/
structure Lexer where
  /-- The offset of the lexeme that comes next. -/
  offset : Nat
  /-- The number of unmatched opening parentheses before it. -/
  depth : Nat
  /-- Whether it can be the name of a function. -/
  lead : DeclarationLead
  /-- The indices of the opening parentheses that wait for a partner, nearest first. -/
  waiting : List Nat
  /-- What is known of the text before. -/
  scan : Scan

namespace Lexer

/-- A lexer before a text. The depths are filled in later. -/
def start (text : List Char) : Lexer :=
  { offset := 0
    depth := 0
    lead := .absent
    waiting := []
    scan :=
      { pieces := []
        regions := []
        words := []
        punctuation := []
        atoms := []
        depths := List.replicate (text.length + 1) 0 } }

/-- The cursor of a lexer. -/
def cursorIn (lexer : Lexer) (text : List Char) : Option Cursor :=
  (dotBefore text lexer.offset).map fun afterDot =>
    { offset := lexer.offset, depth := lexer.depth, afterDot, lead := lexer.lead }

/-- Adds a piece to what is known, with the depths written down up to its end. -/
def add (lexer : Lexer) (piece : Piece) (depths : List Nat) : Option Lexer := do
  let (atoms, waiting) ← piece.atom?.elim (some (lexer.scan.atoms, lexer.waiting))
    (addAtom lexer.scan.atoms lexer.waiting)
  let next := piece.cursor.advance piece.lexeme
  return {
    offset := next.offset
    depth := next.depth
    lead := next.lead
    waiting
    scan :=
      { pieces := lexer.scan.pieces ++ [piece]
        regions := lexer.scan.regions ++ piece.region?.toList
        words := lexer.scan.words ++ piece.word?.toList
        punctuation := lexer.scan.punctuation ++ piece.punctuation?.toList
        atoms
        depths } }

/-- Reads one lexeme. -/
def step (text : List Char) (lexer : Lexer) : Option Lexer := do
  let cursor ← lexer.cursorIn text
  let (lexeme, depths) ← readLexeme text lexer.depth lexer.offset lexer.scan.depths
  lexer.add { lexeme, cursor } depths

/-- Reads lexemes up to the end of the text, at most `count` of them. -/
def run (text : List Char) : Nat → Lexer → Option Lexer
  | 0, lexer => if lexer.offset < text.length then none else some lexer
  | count + 1, lexer =>
    if lexer.offset < text.length then (lexer.step text).bind (run text count) else some lexer

end Lexer

/-- Scans a text by index. Every lexeme has a character, so there are no more lexemes than these. -/
def readScan (text : List Char) : Option Scan := do
  let last ← (Lexer.start text).run text text.length
  let depths ← put last.scan.depths text.length last.depth
  return { last.scan with depths }

/-- Reads a script by index. -/
def Script.read (text : List Char) : Option Script :=
  (readScan text).map fun scan => { text, scan, lines := linesFrom 0 (rows text) }

/-! ## Characters -/

/-- A look at an offset never leaves the text. -/
@[simp] lemma peek_eq (text : List Char) (offset : Nat) : peek text offset = some text[offset]? := by
  rw [peek]
  split
  · rename_i inside
    rw [List.getElem?_eq_getElem inside, Option.map_some]
  · rename_i outside
    rw [List.getElem?_eq_none (Nat.le_of_not_lt outside)]

section
variable {text front : List Char}

/-- The character behind the first one is the next. -/
lemma getElem?_next {c : Char} {rest : List Char} (parts : text = front ++ c :: rest) :
    text[front.length + 1]? = rest.head? := by
  rw [← List.length_singleton (a := c), ← List.length_append]
  exact getElem?_behind (by rw [parts, List.append_assoc, List.singleton_append])

/-- Whether a comment opens is read without leaving the text. -/
lemma commentAt_eq {c : Char} {rest : List Char} (parts : text = front ++ c :: rest) :
    commentAt text front.length = some (opensBlockComment c rest) := by
  rw [commentAt, peek_eq, peek_eq, getElem?_behind parts, getElem?_next parts, List.head?_cons]
  show (if some c = some '/' then some (rest.head? == some '*') else some false) = _
  rw [opensBlockComment]
  by_cases slash : c = '/'
  · rw [if_pos (congrArg some slash), beq_iff_eq.2 slash, Bool.true_and]
  · rw [if_neg fun same => slash (Option.some.inj same), beq_false_of_ne slash, Bool.false_and]

/-- Whether a dot stands before is read without leaving the text. -/
lemma dotBefore_eq {rest : List Char} (parts : text = front ++ rest) :
    dotBefore text front.length = some (front.getLast? == some '.') := by
  rw [dotBefore, List.getLast?_eq_getElem?]
  split
  · rename_i some_text
    have bound : front.length - 1 < front.length := by omega
    rw [parts, List.getElem?_append_left bound, List.getElem?_eq_getElem bound]
    rfl
  · rename_i no_text
    rw [List.length_eq_zero_iff.1 (Nat.eq_zero_of_not_pos no_text)]
    rfl

/-- Whether a word goes on is read without leaving the text. -/
lemma onWord_eq {rest : List Char} (parts : text = front ++ rest) :
    onWord text front.length = some (rest.head?.any isWordChar) := by
  rw [onWord, peek_eq, getElem?_behind parts, Option.map_some]

/-- Punctuation ends with the text. -/
lemma onPunctuation_nil (parts : text = front ++ []) :
    onPunctuation text front.length = some false := by
  rw [onPunctuation, peek_eq, getElem?_behind parts]
  rfl

/-- Whether punctuation goes on is read without leaving the text. -/
lemma onPunctuation_cons {c : Char} {rest : List Char} (parts : text = front ++ c :: rest) :
    onPunctuation text front.length
      = some !(endsPunctuation c || opensBlockComment c rest) := by
  rw [onPunctuation, peek_eq, getElem?_behind parts, commentAt_eq parts]
  show (if endsPunctuation c = true then some false else some !opensBlockComment c rest) = _
  cases endsPunctuation c <;> rfl

end

/-! ## Stretches -/

/-- It goes on at each character of a stretch, and stops behind it. -/
structure GoesOver (goes : Nat → Option Bool) (front run : List Char) : Prop where
  on : ∀ before c behind, run = before ++ c :: behind → goes (front ++ before).length = some true
  off : goes (front ++ run).length = some false

/-- Behind the first character it goes over the rest of a stretch. -/
lemma GoesOver.tail {goes : Nat → Option Bool} {front run : List Char} {c : Char}
    (goes_over : GoesOver goes front (c :: run)) : GoesOver goes (front ++ [c]) run where
  on := by
    intro before d behind split
    rw [List.append_assoc]
    exact goes_over.on (c :: before) d behind (by rw [split]; rfl)
  off := by
    rw [List.append_assoc]
    exact goes_over.off

/-- It goes on up to an offset just on the stretch before it. -/
lemma goesOver_upTo {front run : List Char} {stop : Nat} (stops : front.length + run.length = stop) :
    GoesOver (upTo stop) front run where
  on := by
    intro before c behind split
    rw [split, List.length_append, List.length_cons] at stops
    rw [upTo, List.length_append, decide_eq_true (by omega)]
  off := by
    rw [upTo, List.length_append, stops, decide_eq_false (Nat.lt_irrefl _)]

section
variable {text front : List Char} {c : Char} {rest : List Char}

/-- A word goes on up to the first character that is not of a word. -/
lemma goesOver_onWord (word_char : isWordChar c = true)
    (parts : text = front ++ ((c :: rest.takeWhile isWordChar) ++ rest.dropWhile isWordChar)) :
    GoesOver (onWord text) front (c :: rest.takeWhile isWordChar) where
  on := by
    intro before d behind split
    have inside : isWordChar d = true := by
      have mem : d ∈ c :: rest.takeWhile isWordChar := by
        rw [split]
        exact List.mem_append_right _ List.mem_cons_self
      rcases List.mem_cons.1 mem with rfl | mem
      · exact word_char
      · exact List.mem_takeWhile_imp mem
    rw [split, List.append_assoc, ← List.append_assoc] at parts
    rw [onWord_eq parts, List.cons_append, List.head?_cons, Option.any_some, inside]
  off := by
    rw [← List.append_assoc] at parts
    rw [onWord_eq parts]
    have outside := List.head?_dropWhile_not isWordChar rest
    cases stops : (rest.dropWhile isWordChar).head? with
    | none => rfl
    | some d =>
      rw [stops] at outside
      exact congrArg some outside

/-- Nothing more of a run of punctuation follows it. -/
lemma punctuationRun_behind (text : List Char) :
    punctuationRun (punctuationRun text).2 = ([], (punctuationRun text).2) := by
  fun_induction punctuationRun text with
  | case1 => rfl
  | case2 c rest ends => rw [punctuationRun, if_pos ends]
  | case3 c rest _ ih => exact ih

/-- What stands behind a run of punctuation ends it. -/
lemma onPunctuation_behind (parts : text = front ++ (punctuationRun rest).2) :
    onPunctuation text front.length = some false := by
  cases more : (punctuationRun rest).2 with
  | nil =>
    rw [more] at parts
    exact onPunctuation_nil parts
  | cons d behind =>
    rw [more] at parts
    have stops := punctuationRun_behind rest
    rw [more, punctuationRun] at stops
    split at stops
    · rename_i ends
      rw [onPunctuation_cons parts, ends]
      rfl
    · simp at stops

/-- A run of punctuation goes on up to what ends it. -/
lemma goesOver_onPunctuation
    (goes_on : ¬(endsPunctuation c || opensBlockComment c rest) = true)
    (parts : text = front ++ ((c :: (punctuationRun rest).1) ++ (punctuationRun rest).2)) :
    GoesOver (onPunctuation text) front (c :: (punctuationRun rest).1) where
  on := by
    intro before d behind split
    have runs : punctuationRun ((c :: (punctuationRun rest).1) ++ (punctuationRun rest).2)
        = (c :: (punctuationRun rest).1, (punctuationRun rest).2) := by
      rw [List.cons_append, punctuationRun_append, punctuationRun, if_neg goes_on]
    obtain ⟨no_end, no_comment⟩ := goes_on_of_run runs before d behind split
    rw [split, List.append_assoc, ← List.append_assoc, List.cons_append] at parts
    rw [onPunctuation_cons parts, no_end, no_comment]
    rfl
  off := by
    rw [← List.append_assoc] at parts
    exact onPunctuation_behind parts

end

/-! ## Passing -/

section
variable {text front run rest : List Char} {goes : Nat → Option Bool} (depth : Nat)
  {done : List Nat} (length : done.length = front.length) (left : Nat)
include length

/-- Over a stretch the depth is written down at each of its offsets. -/
lemma pass_eq (parts : text = front ++ (run ++ rest)) (goes_over : GoesOver goes front run) :
    pass text depth goes front.length (done ++ List.replicate (run.length + left) 0)
      = some (front.length + run.length,
          done ++ (List.replicate run.length depth ++ List.replicate left 0)) := by
  -- The offset is the length of the text passed, and so is that of the depths written.
  induction run generalizing front done with
  | nil =>
    have off := goes_over.off
    rw [List.append_nil] at off
    rw [pass, off, List.length_nil, Nat.zero_add]
    rfl
  | cons c run ih =>
    have here := goes_over.on [] c run rfl
    rw [List.append_nil] at here
    have inside : front.length < text.length := by
      rw [parts, List.length_append, List.length_append, List.length_cons]
      omega
    have written : put (done ++ List.replicate ((c :: run).length + left) 0) front.length depth
        = some ((done ++ [depth]) ++ List.replicate (run.length + left) 0) := by
      rw [put, if_pos (by simp; omega), List.length_cons, Nat.succ_add, List.replicate_succ, ← length,
        List.set_append_right _ _ (Nat.le_refl _), Nat.sub_self, List.set_cons_zero,
        List.append_assoc, List.singleton_append]
    have length' : (done ++ [depth]).length = (front ++ [c]).length := by
      rw [List.length_append, List.length_append, length]
      rfl
    have onward := ih length' (by rw [parts, List.append_assoc]; rfl) goes_over.tail
    rw [List.length_append, List.length_singleton] at onward
    rw [pass, here, Option.bind_some, if_pos rfl, if_pos inside, written, Option.bind_some, onward,
      List.length_cons, List.replicate_succ, List.append_assoc, Nat.add_assoc, Nat.add_comm 1]
    rfl

/-- A lexeme is read up to the end of the stretch that it is made of. -/
lemma passAs_eq (lexeme : List Char → Lexeme) (parts : text = front ++ (run ++ rest))
    (goes_over : GoesOver goes front run) :
    passAs lexeme text depth goes front.length (done ++ List.replicate (run.length + left) 0)
      = some (lexeme run,
          done ++ (List.replicate run.length depth ++ List.replicate left 0)) := by
  rw [passAs, pass_eq depth length left parts goes_over, parts]
  show some (lexeme (((front ++ (run ++ rest)).drop front.length).take
    (front.length + run.length - front.length)), _) = _
  rw [List.drop_left, Nat.add_sub_cancel_left, List.take_left]

/-- A lexeme of one character is read. -/
lemma passAs_one (lexeme : Lexeme) {c : Char} {rest : List Char} (parts : text = front ++ c :: rest) :
    passAs (fun _ => lexeme) text depth (upTo (front.length + 1)) front.length
        (done ++ List.replicate (1 + left) 0)
      = some (lexeme, done ++ (List.replicate 1 depth ++ List.replicate left 0)) := by
  have goes_over : GoesOver (upTo (front.length + 1)) front [c] := goesOver_upTo rfl
  exact passAs_eq depth length left (fun _ => lexeme) parts goes_over

/-- A comment or string is read up to its mark, or to the end of the text. -/
lemma passRegion_eq (kind : RegionKind) (delimiter mark : List Char) {rest : List Char} {inside : Nat}
    (parts : text = front ++ (delimiter ++ rest))
    (mark_stop : markStop? mark text inside = (cutAfter? mark rest).map fun cut =>
      front.length + (delimiter.length + cut.1.length)) :
    passRegion kind mark inside text depth front.length
        (done ++ List.replicate ((Lexeme.enclosed kind delimiter mark rest).1.length + left) 0)
      = some ((Lexeme.enclosed kind delimiter mark rest).1,
          done ++ (List.replicate (Lexeme.enclosed kind delimiter mark rest).1.length depth
            ++ List.replicate left 0)) := by
  rw [passRegion, mark_stop, Lexeme.enclosed]
  cases cut : cutAfter? mark rest with
  | none =>
    have goes_over : GoesOver (upTo text.length) front (delimiter ++ rest) :=
      goesOver_upTo (by rw [parts, ← List.length_append])
    have parts' : text = front ++ ((delimiter ++ rest) ++ []) := by rw [parts, List.append_nil]
    exact passAs_eq depth length left (.region kind · false) parts' goes_over
  | some split =>
    obtain ⟨body, behind⟩ := split
    have goes_over : GoesOver (upTo (front.length + (delimiter.length + body.length))) front
        (delimiter ++ body) := goesOver_upTo (by rw [List.length_append])
    have parts' : text = front ++ ((delimiter ++ body) ++ behind) := by
      rw [parts, ← append_of_cutAfter? cut, List.append_assoc]
    exact passAs_eq depth length left (.region kind · true) parts' goes_over

/-- The lexeme at an offset is the first one of what is left of the text. -/
lemma readLexeme_eq {c : Char} {rest behind : List Char} {lexeme : Lexeme}
    (parts : text = front ++ c :: rest) (first : Lexeme.first c rest = (lexeme, behind)) :
    readLexeme text depth front.length (done ++ List.replicate (lexeme.length + left) 0)
      = some (lexeme,
          done ++ (List.replicate lexeme.length depth ++ List.replicate left 0)) := by
  have later : text.drop (front.length + 1) = rest := by
    rw [parts, ← List.drop_drop, List.drop_left, List.drop_one, List.tail_cons]
  obtain rfl : (Lexeme.first c rest).1 = lexeme := congrArg Prod.fst first
  rw [readLexeme, peek_eq, getElem?_behind parts, commentAt_eq parts]
  show (if isQuote c = true then _ else _) = _
  by_cases quote : isQuote c = true
  · rw [Lexeme.first, if_pos quote, if_pos quote]
    refine passRegion_eq depth length left .string [c] [c] parts ?_
    rw [markStop?, later]
    simp only [List.length_singleton, Nat.add_assoc]
  by_cases semicolon : c = ';'
  · obtain rfl := semicolon
    refine passRegion_eq depth length left .lineComment [';'] ['\n'] parts ?_
    rw [markStop?, parts, List.drop_left, cutAfter?, if_neg (by simp), Option.map_map]
    congr 1
    funext cut
    simp [Nat.add_comm 1]
  by_cases opens : opensBlockComment c rest = true
  · obtain ⟨rfl, star⟩ := Lexeme.eq_of_opensBlockComment opens
    rw [Lexeme.first, if_neg quote, if_neg quote, if_neg semicolon, if_neg semicolon, if_pos opens,
      if_pos opens]
    apply passRegion_eq depth length left .blockComment ['/', '*'] ['*', '/']
    · rw [parts, star]
      rfl
    · have inside : text.drop (front.length + 2) = rest.tail := by
        rw [← later, List.tail_drop]
      rw [markStop?, inside]
      simp only [Nat.add_assoc]
      rfl
  by_cases left_paren : c = '('
  · obtain rfl := left_paren
    exact passAs_one depth length left .opening parts
  by_cases right_paren : c = ')'
  · obtain rfl := right_paren
    exact passAs_one depth length left .closing parts
  rw [Lexeme.first, if_neg quote, if_neg quote, if_neg semicolon, if_neg semicolon, if_neg opens,
    if_neg opens, if_neg left_paren, if_neg left_paren, if_neg right_paren, if_neg right_paren]
  by_cases space : (isBlank c || isLineEnd c) = true
  · rw [if_pos space, if_pos space]
    exact passAs_one depth length left (.space c) parts
  rw [if_neg space, if_neg space]
  by_cases word_char : isWordChar c = true
  · rw [if_pos word_char, if_pos word_char]
    have parts' : text
        = front ++ ((c :: rest.takeWhile isWordChar) ++ rest.dropWhile isWordChar) := by
      rw [parts, List.cons_append, List.takeWhile_append_dropWhile]
    exact passAs_eq depth length left .word parts' (goesOver_onWord word_char parts')
  · rw [if_neg word_char, if_neg word_char]
    have goes_on : ¬(endsPunctuation c || opensBlockComment c rest) = true := by
      simp [endsPunctuation, *]
    have parts' : text = front ++ ((c :: (punctuationRun rest).1) ++ (punctuationRun rest).2) := by
      rw [parts, List.cons_append, punctuationRun_append]
    exact passAs_eq depth length left .punctuation parts' (goesOver_onPunctuation goes_on parts')

end

/-! ## Atoms -/

/-- Of the atoms paired so far, a pair more changes its opening parenthesis only. -/
lemma pairedBy_concat {pairs : List (Nat × Nat)} {nearest last index : Nat} (bound : index < last)
    (other : index ≠ nearest) (atom : Atom) :
    atom.pairedBy (pairs ++ [(nearest, last)]) index = atom.pairedBy pairs index := by
  have not_first : [(nearest, last)].find? (·.1 = index) = none := by simp [Ne.symm other]
  have not_second : [(nearest, last)].find? (·.2 = index) = none := by simp; omega
  cases atom with
  | word w => rfl
  | opening start partner =>
    rw [Atom.pairedBy, Atom.pairedBy, List.find?_append, not_first, Option.or_none]
  | closing start partner =>
    rw [Atom.pairedBy, Atom.pairedBy, List.find?_append, not_second, Option.or_none]

section
variable (loose : List Atom)

/-- No atom but those paired has a partner. -/
lemma pairedBy_length {atom : Atom} :
    atom.pairedBy (parenPairs 0 [] loose) loose.length = atom.pairedBy [] 0 := by
  have first : (parenPairs 0 [] loose).find? (·.1 = loose.length) = none := by
    rw [List.find?_eq_none]
    intro pair mem
    have bound := ((matching loose).opens pair mem).lt_length
    simp only [decide_eq_true_eq]
    omega
  have second : (parenPairs 0 [] loose).find? (·.2 = loose.length) = none := by
    rw [List.find?_eq_none]
    intro pair mem
    have bound := ((matching loose).closes pair mem).lt_length
    simp only [decide_eq_true_eq]
    omega
  cases atom with
  | word w => rfl
  | opening start partner => rw [Atom.pairedBy, first]; rfl
  | closing start partner => rw [Atom.pairedBy, second]; rfl

/-- An atom without a partner is added to those that are paired. -/
lemma pairAtoms_concat {atom : Atom}
    (alone : parenPairs loose.length (stillWaiting 0 [] loose) [atom] = []) :
    pairAtoms (loose ++ [atom]) = pairAtoms loose ++ [atom.pairedBy [] 0] := by
  rw [pairAtoms, parenPairs_append, Nat.zero_add, alone, List.append_nil, List.mapIdx_concat,
    pairedBy_length]
  rfl

/-- A closing parenthesis is added to those that are paired, and its partner gets it as a partner. -/
lemma pairAtoms_closing {nearest : Nat} {outer : List Nat}
    (waiting : stillWaiting 0 [] loose = nearest :: outer) (start : Nat) (partner : Option Nat) :
    ∃ opener, (pairAtoms loose)[nearest]? = some opener ∧
      pairAtoms (loose ++ [.closing start partner])
        = (pairAtoms loose).set nearest (opener.joined loose.length)
          ++ [.closing start (some nearest)] := by
  have waits := ((matching loose).waits nearest).1 (waiting ▸ List.mem_cons_self)
  obtain ⟨⟨start', partner', here⟩, unpaired⟩ := waits
  have no_pair : (parenPairs 0 [] loose).find? (·.1 = nearest) = none := by
    rw [List.find?_eq_none]
    intro pair mem
    simpa only [decide_eq_true_eq] using unpaired pair mem
  have pairs : parenPairs 0 [] (loose ++ [.closing start partner])
      = parenPairs 0 [] loose ++ [(nearest, loose.length)] := by
    rw [parenPairs_append, waiting, Nat.zero_add]
    rfl
  have last := partner_of_closing loose [] start partner
  rw [waiting, List.head?_cons] at last
  refine ⟨.opening start' none, ?_, ?_⟩
  · exact opening_pairAtoms_iff.2 ⟨⟨partner', here⟩, congrArg (Option.map (·.2)) no_pair⟩
  rw [pairAtoms, List.mapIdx_concat, Atom.pairedBy, last]
  congr 1
  apply List.ext_getElem?
  intro index
  rw [List.getElem?_mapIdx, List.getElem?_set, pairs]
  split
  · rename_i same
    obtain rfl := same
    have bound := (List.getElem?_eq_some_iff.1 here).1
    rw [here, if_pos (by rwa [length_pairAtoms]), Option.map_some, Atom.pairedBy, List.find?_append,
      no_pair]
    simp [Atom.joined]
  · rename_i other
    rw [pairAtoms, List.getElem?_mapIdx]
    cases entry : loose[index]? with
    | none => rfl
    | some atom =>
      have bound := (List.getElem?_eq_some_iff.1 entry).1
      rw [Option.map_some, Option.map_some, pairedBy_concat bound (Ne.symm other)]

/-- An atom more is paired with those before it. -/
lemma addAtom_eq (atom : Atom) :
    addAtom (pairAtoms loose) (stillWaiting 0 [] loose) atom
      = some (pairAtoms (loose ++ [atom]), stillWaiting 0 [] (loose ++ [atom])) := by
  rw [stillWaiting_concat]
  cases atom with
  | word w =>
    rw [pairAtoms_concat loose rfl]
    rfl
  | opening start partner =>
    rw [pairAtoms_concat loose rfl, addAtom, length_pairAtoms]
    rfl
  | closing start partner =>
    cases waiting : stillWaiting 0 [] loose with
    | nil =>
      rw [pairAtoms_concat loose (by rw [waiting]; rfl)]
      rfl
    | cons nearest outer =>
      obtain ⟨opener, here, paired⟩ := pairAtoms_closing loose waiting start partner
      have bound := (List.getElem?_eq_some_iff.1 here).1
      rw [paired, addAtom, here, length_pairAtoms]
      show (put (pairAtoms loose) nearest (opener.joined loose.length)).bind _ = _
      rw [put, if_pos bound]
      rfl

/-- The atom of a piece, if it is one, is paired with those before it. -/
lemma addAtoms_eq (atom? : Option Atom) :
    atom?.elim (some (pairAtoms loose, stillWaiting 0 [] loose))
        (addAtom (pairAtoms loose) (stillWaiting 0 [] loose))
      = some (pairAtoms (loose ++ atom?.toList), stillWaiting 0 [] (loose ++ atom?.toList)) := by
  cases atom? with
  | none => rw [Option.toList_none, List.append_nil]; rfl
  | some atom => exact addAtom_eq loose atom

end

/-! ## Steps and runs -/

namespace Lexer

/-- The lexer behind some lexemes, with the last `left` depths not written yet. -/
def behind (before : List Lexeme) (left : Nat) : Lexer :=
  { offset := (Cursor.start.after before).offset
    depth := (Cursor.start.after before).depth
    lead := (Cursor.start.after before).lead
    waiting := stillWaiting 0 [] (looseAtoms .start before)
    scan :=
      { pieces := placed .start before
        regions := (placed .start before).filterMap Piece.region?
        words := (placed .start before).filterMap Piece.word?
        punctuation := (placed .start before).filterMap Piece.punctuation?
        atoms := pairAtoms (looseAtoms .start before)
        depths := (placed .start before).flatMap Piece.depths ++ List.replicate left 0 } }

section
variable {text : List Char} {before : List Lexeme}

/-- The lexer stands behind the lexemes that it has read. -/
lemma behind_offset (before : List Lexeme) (left : Nat) :
    (behind before left).offset = (written before).length :=
  Cursor.start_after_offset before

/-- The cursor behind some lexemes is found. -/
lemma cursorIn_behind {rest : List Lexeme} (joint : lexemes text = before ++ rest) (left : Nat) :
    (behind before left).cursorIn text = some (Cursor.start.after before) := by
  obtain ⟨stream, same⟩ := lexemes_eq_iff.1 joint
  rw [written_append] at same
  rw [cursorIn, behind_offset, dotBefore_eq same.symm, ← afterDot_after stream, Option.map_some,
    ← Cursor.start_after_offset]
  rfl

omit text in
/-- Behind some lexemes, the next one is added to what is known. -/
lemma add_behind (lexeme : Lexeme) (left later : Nat) :
    (behind before left).add { lexeme, cursor := Cursor.start.after before }
        ((placed .start before).flatMap Piece.depths
          ++ (List.replicate lexeme.length (Cursor.start.after before).depth ++ List.replicate later 0))
      = some (behind (before ++ [lexeme]) later) := by
  have one : ∀ {α : Type} (view : Piece → Option α) (piece : Piece),
      [piece].filterMap view = (view piece).toList := by
    intro α view piece
    rw [List.filterMap_cons]
    cases view piece <;> rfl
  have added := addAtoms_eq (looseAtoms .start before)
    (Piece.atom? { lexeme, cursor := Cursor.start.after before })
  have loose : looseAtoms .start (before ++ [lexeme]) = looseAtoms .start before
      ++ (Piece.atom? { lexeme, cursor := Cursor.start.after before }).toList := by
    rw [looseAtoms_append, ← one]
    rfl
  rw [← loose] at added
  have pieces : placed .start (before ++ [lexeme])
      = placed .start before ++ [{ lexeme, cursor := Cursor.start.after before }] := by
    rw [placed_append, placed_cons, placed_nil]
  rw [add, behind]
  dsimp only
  rw [added, behind, pieces, List.filterMap_append, List.filterMap_append, List.filterMap_append,
    List.flatMap_append, one, one, one, Cursor.after_append, Cursor.after_cons, Cursor.after_nil,
    List.append_assoc, List.flatMap_singleton]
  rfl

/-- One step leads from behind some lexemes to behind the next one. -/
lemma step_behind {lexeme : Lexeme} {rest : List Lexeme}
    (joint : lexemes text = before ++ lexeme :: rest) :
    (behind before ((written (lexeme :: rest)).length + 1)).step text
      = some (behind (before ++ [lexeme]) ((written rest).length + 1)) := by
  obtain ⟨c, more, parts, first⟩ := (lexemes_eq_iff.1 joint).1.reads.first
  have whole : text = written before ++ c :: more := by
    rw [text_of_joint joint, parts]
  have left : (written (lexeme :: rest)).length + 1 = lexeme.length + ((written rest).length + 1) := by
    rw [written_cons, List.length_append, Nat.add_assoc]
    rfl
  have read := readLexeme_eq (Cursor.start.after before).depth (length_depths .start before)
    ((written rest).length + 1) whole first
  rw [← Cursor.start_after_offset] at read
  rw [step, cursorIn_behind joint, left]
  show (readLexeme text (Cursor.start.after before).depth (Cursor.start.after before).offset
    ((placed .start before).flatMap Piece.depths ++ _)).bind _ = _
  rw [read]
  exact add_behind lexeme _ _

/-- Behind all lexemes the lexer stops. -/
lemma run_behind {rest : List Lexeme} (joint : lexemes text = before ++ rest) {count : Nat}
    (enough : (written rest).length ≤ count) :
    (behind before ((written rest).length + 1)).run text count = some (behind (lexemes text) 1) := by
  have length := length_eq_of_lexemes joint
  rw [written_append, List.length_append] at length
  -- Each lexeme takes a step and has a character at least.
  induction rest generalizing before count with
  | nil =>
    have stops : ¬ (behind before 1).offset < text.length := by
      rw [behind_offset, length]
      exact Nat.lt_irrefl _
    rw [joint, List.append_nil]
    cases count with
    | zero => exact if_neg stops
    | succ count => exact if_neg stops
  | cons lexeme rest ih =>
    have some_text := List.length_pos_iff.2 (lexemes_eq_iff.1 joint).1.reads.text_ne_nil
    rw [written_cons, List.length_append] at enough length
    obtain ⟨count, rfl⟩ := Nat.exists_eq_succ_of_ne_zero (show count ≠ 0 by omega)
    have onward := @ih (before ++ [lexeme]) (by rw [joint, List.append_assoc]; rfl) count
      (by omega) (by simp; omega)
    rw [run, if_pos (by rw [behind_offset]; omega), step_behind joint, Option.bind_some, onward]

end

end Lexer

/-- Lexing by index gives the scan of a text. -/
lemma readScan_eq (text : List Char) : readScan text = some (Scan.ofText text) := by
  have whole : text.length = (written (lexemes text)).length := length_eq_of_lexemes rfl
  have ends : (Lexer.start text).run text text.length = some (Lexer.behind (lexemes text) 1) := by
    have joint : lexemes text = [] ++ lexemes text := rfl
    have runs := Lexer.run_behind joint (Nat.le_of_eq whole.symm)
    rw [← whole] at runs
    exact runs
  have last : put (Lexer.behind (lexemes text) 1).scan.depths text.length
        (Lexer.behind (lexemes text) 1).depth
      = some (Scan.ofText text).depths := by
    have length := length_depths .start (lexemes text)
    rw [← whole] at length
    rw [put, if_pos (by simp [Lexer.behind, length]), ← length, Lexer.behind,
      List.set_append_right _ _ (Nat.le_refl _), Nat.sub_self]
    rfl
  rw [readScan, ends]
  show (put (Lexer.behind (lexemes text) 1).scan.depths text.length
    (Lexer.behind (lexemes text) 1).depth).bind _ = _
  rw [last]
  rfl

/-- Reading by index gives the script. -/
lemma read_eq (text : List Char) : Script.read text = some (Script.ofText text) := by
  rw [Script.read, readScan_eq]
  rfl

end KixScript

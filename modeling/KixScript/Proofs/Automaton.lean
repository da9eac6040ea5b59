import KixScript.Proofs.Places

/-!
# Reading character by character

A reader that goes over a text one character at a time and looks one character ahead. It knows what
it is in the middle of (`Mode`) and how deep the parentheses are, and nothing of lexemes. Over a whole
lexeme it comes from code to code, unless the text ends first (`Lexeme.Reads.through`), and inside of
a comment or string it knows where that began (`Lexeme.Reads.through_inside`). So at every offset it
tells what `contextAt` tells (`contextAt_report`).
-/

namespace KixScript

/-- How far a block comment is read. -/
inductive BlockStage where
  /-- The slash is read, and the star that opens the comment comes next. -/
  | opening
  /-- The last character cannot begin the closing mark. -/
  | inside
  /-- The last character is a star inside of the comment, so a slash closes it. -/
  | star
  deriving DecidableEq, Repr

/-- What the reader is in the middle of. A comment or string is known by the offset where it began. -/
inductive Mode where
  | code
  | string (start : Nat) (quote : Char)
  | lineComment (start : Nat)
  | blockComment (start : Nat) (stage : BlockStage)
  deriving DecidableEq, Repr

namespace Mode

/-- The mode behind the character `c` at `offset`, before `next`. -/
def after (offset : Nat) (c : Char) (next : Option Char) : Mode → Mode
  | code =>
    if isQuote c then string offset c
    else if c = ';' then lineComment offset
    else if c = '/' ∧ next = some '*' then blockComment offset .opening
    else code
  | string start quote => if c = quote then code else string start quote
  | lineComment start => if c = '\n' then code else lineComment start
  | blockComment start .opening => blockComment start .inside
  | blockComment start .inside => blockComment start (if c = '*' then .star else .inside)
  | blockComment start .star =>
    if c = '/' then code else blockComment start (if c = '*' then .star else .inside)

/-- Only parentheses in code count, and a closing one never makes the depth negative. -/
def depthAfter (c : Char) (depth : Nat) : Mode → Nat
  | code => if c = '(' then depth + 1 else if c = ')' then depth - 1 else depth
  | _ => depth

end Mode

/-- The state of the reader. -/
structure Reader where
  /-- The number of characters read. -/
  count : Nat
  mode : Mode
  /-- The number of unmatched opening parentheses. -/
  depth : Nat
  deriving DecidableEq, Repr

/-- What is told of an offset. -/
structure Report where
  inComment : Bool
  inString : Bool
  /-- The offset where the comment or string began. -/
  regionStart : Option Nat
  depth : Nat
  deriving DecidableEq, Repr

namespace Reader

/-- The reader before any character. -/
def start : Reader :=
  ⟨0, .code, 0⟩

/-- Reads the character `c` before `next`. -/
def step (reader : Reader) (c : Char) (next : Option Char) : Reader :=
  ⟨reader.count + 1, reader.mode.after reader.count c next, reader.mode.depthAfter c reader.depth⟩

/-- Reads all of `front`, behind which `rest` follows. -/
def through (reader : Reader) : List Char → List Char → Reader
  | [], _ => reader
  | c :: front, rest => (reader.step c (front ++ rest).head?).through front rest

/-- The reader at an offset of a text, and at its end for offsets behind it. -/
def readTo (text : List Char) (offset : Nat) : Reader :=
  start.through (text.take offset) (text.drop offset)

/-- What the reader tells of the place that it has come to. -/
def report (reader : Reader) : Report :=
  match reader.mode with
  | .code => ⟨false, false, none, reader.depth⟩
  | .string start _ => ⟨false, true, some start, reader.depth⟩
  | .lineComment start => ⟨true, false, some start, reader.depth⟩
  | .blockComment start _ => ⟨true, false, some start, reader.depth⟩

@[simp] lemma through_nil (reader : Reader) (rest : List Char) : reader.through [] rest = reader := rfl

/-- Characters are read one by one. -/
@[simp] lemma through_cons (reader : Reader) (c : Char) (front rest : List Char) :
    reader.through (c :: front) rest
      = (reader.step c (front ++ rest).head?).through front rest := rfl

/-- Two texts are read one after the other. -/
lemma through_append (reader : Reader) (first second rest : List Char) :
    reader.through (first ++ second) rest
      = (reader.through first (second ++ rest)).through second rest := by
  induction first generalizing reader with
  | nil => rfl
  | cons c front ih => rw [List.cons_append, through_cons, through_cons, ih, List.append_assoc]

end Reader

/-- What a context tells of its offset. -/
def Context.report (context : Context) : Report :=
  ⟨context.inComment, context.inString, context.regionStart, context.depth⟩

/-- A character that leaves the reader in code, at the same depth. -/
structure Inert (c : Char) (next : Option Char) : Prop where
  quote : isQuote c = false
  comment : c ≠ ';'
  block : ¬(c = '/' ∧ next = some '*')
  left : c ≠ '('
  right : c ≠ ')'

/-- Every character of a text is inert before what follows it. -/
def AllInert (text rest : List Char) : Prop :=
  ∀ front c more, text = front ++ c :: more → Inert c (more ++ rest).head?

/-- An inert character is counted, and nothing else. -/
lemma Inert.step {c : Char} {next : Option Char} (inert : Inert c next) (count depth : Nat) :
    (Reader.mk count .code depth).step c next = ⟨count + 1, .code, depth⟩ := by
  obtain ⟨quote, comment, block, left, right⟩ := inert
  simp only [Reader.step, Mode.after, Mode.depthAfter, quote, comment, left, right,
    Bool.false_eq_true, if_false]
  rw [if_neg block]

/-- Inert characters are counted, and nothing else. -/
lemma AllInert.through {front rest : List Char} (inert : AllInert front rest) (count depth : Nat) :
    (Reader.mk count .code depth).through front rest = ⟨count + front.length, .code, depth⟩ := by
  induction front generalizing count with
  | nil => rfl
  | cons c more ih =>
    have behind : AllInert more rest := by
      intro front d after split
      exact inert (c :: front) d after (by rw [split, List.cons_append])
    rw [Reader.through_cons, (inert [] c more rfl).step, ih behind, List.length_cons]
    congr 1
    omega

/-- The front of inert characters is inert. -/
lemma AllInert.front {front more rest : List Char} (inert : AllInert (front ++ more) rest) :
    AllInert front (more ++ rest) := by
  intro before c after split
  have here := inert before c (after ++ more) (by rw [split, List.append_assoc, List.cons_append])
  rwa [List.append_assoc] at here

/-- Characters of words are inert. -/
lemma inert_of_isWordChar {c : Char} (word_char : isWordChar c = true) (next : Option Char) :
    Inert c next := by
  have other : ∀ d, isWordChar d = false → c ≠ d := fun d => ne_of_isWordChar word_char
  refine ⟨?_, other ';' (by decide), fun slash => other '/' (by decide) slash.1,
    other '(' (by decide), other ')' (by decide)⟩
  simp [isQuote, other '"' (by decide), other '\x27' (by decide)]

/-- Runs of punctuation are inert. -/
lemma allInert_of_run {run rest : List Char} (runs : punctuationRun (run ++ rest) = (run, rest)) :
    AllInert run rest := by
  intro front c more split
  obtain ⟨goes_on, block⟩ := goes_on_of_run runs front c more split
  simp only [endsPunctuation, Bool.or_eq_false_iff, beq_eq_false_iff_ne] at goes_on
  obtain ⟨⟨⟨⟨⟨⟨_, _⟩, left⟩, right⟩, comment⟩, quote⟩, _⟩ := goes_on
  exact ⟨quote, comment, by simpa [opensBlockComment] using block, left, right⟩

namespace Reader

/-- Inside of a comment or string the depth stays. -/
lemma depthAfter_of_ne_code {mode : Mode} (inside : mode ≠ .code) (c : Char) (depth : Nat) :
    mode.depthAfter c depth = depth := by
  cases mode with
  | code => exact absurd rfl inside
  | _ => rfl

/-- Characters that leave a mode as it is are read over. -/
lemma through_stay {mode : Mode} {front : List Char} (inside : mode ≠ .code)
    (stays : ∀ c ∈ front, ∀ offset next, mode.after offset c next = mode) (count depth : Nat)
    (rest : List Char) :
    (mk count mode depth).through front rest = ⟨count + front.length, mode, depth⟩ := by
  induction front generalizing count with
  | nil => rfl
  | cons c more ih =>
    have here : (mk count mode depth).step c (more ++ rest).head? = ⟨count + 1, mode, depth⟩ := by
      rw [step, stays c List.mem_cons_self, depthAfter_of_ne_code inside]
    rw [through_cons, here, ih fun d mem => stays d (List.mem_cons_of_mem _ mem), List.length_cons]
    congr 1
    omega

/-- Without its quote, a string goes on. -/
lemma through_string {quote : Char} {front : List Char} (nowhere : quote ∉ front)
    (start count depth : Nat) (rest : List Char) :
    (mk count (.string start quote) depth).through front rest
      = ⟨count + front.length, .string start quote, depth⟩ := by
  apply through_stay Mode.noConfusion
  intro c mem offset next
  have other : c ≠ quote := fun same => nowhere (same ▸ mem)
  exact if_neg other

/-- Without a line feed, a line comment goes on. -/
lemma through_lineComment {front : List Char} (nowhere : '\n' ∉ front) (start count depth : Nat)
    (rest : List Char) :
    (mk count (.lineComment start) depth).through front rest
      = ⟨count + front.length, .lineComment start, depth⟩ := by
  apply through_stay Mode.noConfusion
  intro c mem offset next
  have other : c ≠ '\n' := fun same => nowhere (same ▸ mem)
  exact if_neg other

/-- Without its closing mark, a block comment goes on. -/
lemma through_block {front : List Char} {stage : BlockStage}
    (uncut : cutAfter? ['*', '/'] front = none) (begun : stage ≠ .opening)
    (fits : stage = .star → front.head? ≠ some '/') (start count depth : Nat) (rest : List Char) :
    ∃ stage', stage' ≠ .opening ∧
      (mk count (.blockComment start stage) depth).through front rest
        = ⟨count + front.length, .blockComment start stage', depth⟩ := by
  induction front generalizing stage count with
  | nil => exact ⟨stage, begun, rfl⟩
  | cons c more ih =>
    rw [cutAfter?] at uncut
    split at uncut
    · cases uncut
    · rename_i absent
      have here : (mk count (.blockComment start stage) depth).step c (more ++ rest).head?
          = ⟨count + 1, .blockComment start (if c = '*' then .star else .inside), depth⟩ := by
        cases stage with
        | opening => exact absurd rfl begun
        | inside => rfl
        | star =>
          have no_slash : c ≠ '/' := by simpa using fits rfl
          simp [step, Mode.after, Mode.depthAfter, no_slash]
      have begun' : (if c = '*' then BlockStage.star else .inside) ≠ .opening := by
        split <;> decide
      -- A star before a slash would be the closing mark.
      have fits' : (if c = '*' then BlockStage.star else .inside) = .star →
          more.head? ≠ some '/' := by
        intro star slash
        split at star
        · rename_i same
          obtain ⟨more', rfl⟩ := List.head?_eq_some_iff.1 slash
          exact absent (by simp [same])
        · cases star
      obtain ⟨stage', begun'', there⟩ :=
        ih (Option.map_eq_none_iff.1 uncut) begun' fits' (count + 1)
      refine ⟨stage', begun'', ?_⟩
      rw [through_cons, here, there, List.length_cons]
      congr 1
      omega

/-- A reader stays inside of a block comment that is not ended. -/
lemma through_inside_block {front : List Char} (uncut : cutAfter? ['*', '/'] front = none)
    (start count depth : Nat) (rest : List Char) :
    ∃ stage, stage ≠ .opening ∧
      (mk count (.blockComment start .inside) depth).through front rest
        = ⟨count + front.length, .blockComment start stage, depth⟩ :=
  through_block uncut BlockStage.noConfusion BlockStage.noConfusion start count depth rest

/-- A quote opens a string. -/
lemma step_quote {quote : Char} (is_quote : isQuote quote = true) (count depth : Nat)
    (next : Option Char) :
    (mk count .code depth).step quote next = ⟨count + 1, .string count quote, depth⟩ := by
  have two : quote = '"' ∨ quote = '\x27' := by simpa [isQuote] using is_quote
  rcases two with rfl | rfl <;> rfl

/-- A semicolon opens a comment. -/
lemma step_semicolon (count depth : Nat) (next : Option Char) :
    (mk count .code depth).step ';' next = ⟨count + 1, .lineComment count, depth⟩ := rfl

/-- A slash and an asterisk open a block comment. -/
lemma through_slash_star (count depth : Nat) (front rest : List Char) :
    (mk count .code depth).through ('/' :: '*' :: front) rest
      = (mk (count + 2) (.blockComment count .inside) depth).through front rest := rfl

end Reader

namespace Lexeme

/-- The mark that ends an enclosed text does not stand before its end. -/
lemma Encloses.uncut {mark front more rest : List Char} {closed : Bool} (some_mark : mark ≠ [])
    (encloses : Encloses mark (front ++ more) rest closed) (goes_on : more ≠ [] ∨ closed = false) :
    cutAfter? mark front = none := by
  cases closed with
  | true => exact ClosedBy.uncut some_mark encloses (goes_on.resolve_right Bool.noConfusion)
  | false => exact uncut_of_append some_mark encloses.1

/-- Inside of a comment or string, the reader knows where it began. -/
lemma Reads.through_inside {kind : RegionKind} {front more rest : List Char} {closed : Bool}
    (reads : (region kind (front ++ more) closed).Reads rest) (some_front : front ≠ [])
    (goes_on : more ≠ [] ∨ closed = false) (count depth : Nat) :
    ((Reader.mk count .code depth).through front (more ++ rest)).report
      = ⟨kind != .string, !(kind != .string), some count, depth⟩ := by
  obtain ⟨c, front, rfl⟩ := List.exists_cons_of_ne_nil some_front
  cases kind with
  | string =>
    obtain ⟨quote, body, is_quote, same, encloses⟩ := reads
    obtain ⟨rfl, rfl⟩ := List.cons.inj same
    have nowhere := not_mem_of_uncut (encloses.uncut (List.cons_ne_nil _ _) goes_on)
    rw [Reader.through_cons, Reader.step_quote is_quote, Reader.through_string nowhere]
    rfl
  | lineComment =>
    obtain ⟨body, same, encloses⟩ := reads
    obtain ⟨rfl, rfl⟩ := List.cons.inj same
    have nowhere := not_mem_of_uncut (encloses.uncut (List.cons_ne_nil _ _) goes_on)
    rw [Reader.through_cons, Reader.step_semicolon, Reader.through_lineComment nowhere]
    rfl
  | blockComment =>
    obtain ⟨body, same, encloses⟩ := reads
    obtain ⟨rfl, star⟩ := List.cons.inj same
    cases front with
    | nil =>
      -- Only the slash is read, and the star is in sight.
      obtain rfl : more = '*' :: body := star
      rfl
    | cons d front =>
      obtain ⟨rfl, rfl⟩ := List.cons.inj star
      have uncut := encloses.uncut (List.cons_ne_nil _ _) goes_on
      obtain ⟨stage, _, read⟩ :=
        Reader.through_inside_block uncut count (count + 2) depth (more ++ rest)
      rw [Reader.through_slash_star, read]
      rfl

/-- Over a closed comment or string, the reader comes back to code. -/
lemma Reads.through_region {kind : RegionKind} {body rest : List Char}
    (reads : (region kind body true).Reads rest) (count depth : Nat) :
    (Reader.mk count .code depth).through body rest = ⟨count + body.length, .code, depth⟩ := by
  cases kind with
  | string =>
    obtain ⟨quote, inner, is_quote, rfl, closed⟩ := reads
    obtain ⟨front, rfl, nowhere⟩ := ClosedBy.exists_concat closed
    have ends : (Reader.mk (count + 1 + front.length) (.string count quote) depth).step quote
        rest.head? = ⟨count + 1 + front.length + 1, .code, depth⟩ := by
      rw [Reader.step, Mode.after, if_pos rfl]
      rfl
    rw [Reader.through_cons, Reader.step_quote is_quote, Reader.through_append,
      Reader.through_string nowhere, Reader.through_cons, List.nil_append, ends]
    simp [Nat.add_comm, Nat.add_left_comm]
  | lineComment =>
    obtain ⟨inner, rfl, closed⟩ := reads
    obtain ⟨front, rfl, nowhere⟩ := ClosedBy.exists_concat closed
    have ends : (Reader.mk (count + 1 + front.length) (.lineComment count) depth).step '\n'
        rest.head? = ⟨count + 1 + front.length + 1, .code, depth⟩ := rfl
    rw [Reader.through_cons, Reader.step_semicolon, Reader.through_append,
      Reader.through_lineComment nowhere, Reader.through_cons, List.nil_append, ends]
    simp [Nat.add_comm, Nat.add_left_comm]
  | blockComment =>
    obtain ⟨inner, rfl, closed⟩ := reads
    obtain ⟨front, rfl⟩ := ClosedBy.exists_append closed
    have uncut : cutAfter? ['*', '/'] front = none :=
      ClosedBy.uncut (List.cons_ne_nil _ _) closed (List.cons_ne_nil _ _)
    obtain ⟨stage, begun, read⟩ :=
      Reader.through_inside_block uncut count (count + 2) depth (['*', '/'] ++ rest)
    have ends : (Reader.mk (count + 2 + front.length) (.blockComment count stage) depth).through
        ['*', '/'] rest = ⟨count + 2 + front.length + 2, .code, depth⟩ := by
      cases stage with
      | opening => exact absurd rfl begun
      | inside => rfl
      | star => rfl
    rw [Reader.through_slash_star, Reader.through_append, read, ends]
    simp [Nat.add_comm, Nat.add_left_comm]

/-- The lexemes that are neither a parenthesis nor a comment or string. -/
def isInert : Lexeme → Bool
  | space _ => true
  | word _ => true
  | punctuation _ => true
  | _ => false

/-- The text of an inert lexeme is inert. -/
lemma Reads.allInert {lexeme : Lexeme} {rest : List Char} (reads : lexeme.Reads rest)
    (inert : lexeme.isInert = true) : AllInert lexeme.text rest := by
  cases lexeme with
  | space c =>
    intro front d more split
    obtain rfl : d = c := by
      apply List.mem_singleton.1
      rw [show [c] = front ++ d :: more from split]
      exact List.mem_append_right front List.mem_cons_self
    have four : d = ' ' ∨ d = '\t' ∨ d = '\r' ∨ d = '\n' := by
      simpa [Reads, isBlank, isLineEnd, or_assoc] using reads
    rcases four with rfl | rfl | rfl | rfl <;>
      exact ⟨rfl, by decide, fun slash => absurd slash.1 (by decide), by decide, by decide⟩
  | word text =>
    obtain ⟨_, word_chars, _⟩ := reads
    intro front d more split
    apply inert_of_isWordChar
    apply word_chars
    rw [show text = front ++ d :: more from split]
    exact List.mem_append_right front List.mem_cons_self
  | punctuation run => exact allInert_of_run reads.2
  | opening => cases inert
  | closing => cases inert
  | region kind body closed => cases inert

end Lexeme

/-- The reader where a cursor stands, in code. -/
def Cursor.reader (cursor : Cursor) : Reader :=
  ⟨cursor.offset, .code, cursor.depth⟩

/-- Over a whole lexeme, the reader goes where the cursor goes, unless the text ends first. -/
lemma Lexeme.Reads.through {lexeme : Lexeme} {rest : List Char} (reads : lexeme.Reads rest)
    (closed : lexeme.isOpen = false) (cursor : Cursor) :
    cursor.reader.through lexeme.text rest = (cursor.advance lexeme).reader := by
  cases lexeme with
  | opening => rfl
  | closing => rfl
  | region kind body is_closed =>
    obtain rfl : is_closed = true := by simpa [isOpen] using closed
    exact reads.through_region cursor.offset cursor.depth
  | space c => exact (reads.allInert rfl).through cursor.offset cursor.depth
  | word text => exact (reads.allInert rfl).through cursor.offset cursor.depth
  | punctuation run => exact (reads.allInert rfl).through cursor.offset cursor.depth

/-- Between two lexemes, the reader is in code, where the cursor stands. -/
lemma Stream.through {before behind : List Lexeme} (stream : Stream (before ++ behind))
    (closed : AllClosed before) (cursor : Cursor) :
    cursor.reader.through (written before) (written behind) = (cursor.after before).reader := by
  induction before generalizing cursor with
  | nil => rfl
  | cons lexeme rest ih =>
    obtain ⟨closed_here, closed_rest⟩ := List.forall_mem_cons.1 closed
    rw [List.cons_append] at stream
    cases stream with
    | cons reads stream =>
      rw [written_append] at reads
      rw [written_cons, Reader.through_append, reads.through closed_here, ih stream closed_rest,
        Cursor.after_cons]

section
variable {text : List Char} {before behind : List Lexeme}

/-- At a joint the reader has read what the cursor is behind. -/
lemma readTo_joint (joint : lexemes text = before ++ behind) (closed : AllClosed before) :
    Reader.readTo text (written before).length = (Cursor.start.after before).reader := by
  obtain ⟨stream, whole⟩ := lexemes_eq_iff.1 joint
  rw [written_append] at whole
  rw [Reader.readTo, ← whole, List.take_left, List.drop_left]
  exact stream.through closed .start

/-- Inside of a lexeme, the reader goes on from the joint before it. -/
lemma readTo_inside {lexeme : Lexeme} {front more : List Char}
    (joint : lexemes text = before ++ lexeme :: behind) (parts : lexeme.text = front ++ more) :
    Reader.readTo text ((written before).length + front.length)
      = (Cursor.start.after before).reader.through front (more ++ written behind) := by
  obtain ⟨stream, whole⟩ := lexemes_eq_iff.1 joint
  have closed := stream.allClosed (List.cons_ne_nil _ _)
  have split : text = (written before ++ front) ++ (more ++ written behind) := by
    rw [← whole, written_append, written_cons, parts]
    simp only [List.append_assoc]
  have read := stream.through closed .start
  rw [written_cons, parts, List.append_assoc] at read
  rw [Reader.readTo, ← List.length_append, split, List.take_left, List.drop_left,
    Reader.through_append, ← read]
  rfl

end

/-- At each place, the context is what the reader reports. -/
lemma report_of_place {text : List Char} {offset : Nat} (place : Place text offset) :
    ((Script.ofText text).contextAt offset).report = (Reader.readTo text offset).report := by
  cases place with
  | joint joint closed =>
    rw [contextAt_joint joint closed, readTo_joint joint closed]
    rfl
  | @between before lexeme behind inside joint no_region some_inside bound =>
    have reads := (lexemes_eq_iff.1 joint).1.reads
    have parts := (List.take_append_drop inside lexeme.text).symm
    have length : (lexeme.text.take inside).length = inside :=
      List.length_take_of_le (Nat.le_of_lt bound)
    -- Parentheses have no inside, so the lexeme changes nothing.
    have is_inert : lexeme.isInert = true := by
      cases lexeme with
      | opening => exact absurd bound (Nat.not_lt.2 some_inside)
      | closing => exact absurd bound (Nat.not_lt.2 some_inside)
      | region kind body closed => exact absurd rfl (no_region kind body closed)
      | _ => rfl
    have inert := reads.allInert is_inert
    rw [parts] at inert
    have read := readTo_inside joint parts
    rw [length] at read
    rw [contextAt_between joint no_region some_inside bound, read, Cursor.reader,
      inert.front.through]
    rfl
  | @inside before kind body closed behind inside joint some_inside bound =>
    have reads := (lexemes_eq_iff.1 joint).1.reads
    have parts := (List.take_append_drop inside body).symm
    have length : (body.take inside).length = inside := List.length_take_of_le (by omega)
    have some_front : body.take inside ≠ [] := by
      apply List.ne_nil_of_length_pos
      rwa [length]
    have goes_on : body.drop inside ≠ [] ∨ closed = false := by
      refine bound.imp ?_ And.left
      intro within
      apply List.ne_nil_of_length_pos
      rw [List.length_drop]
      omega
    have read := @readTo_inside text before behind (.region kind body closed) _ _ joint parts
    rw [length] at read
    rw [parts] at reads
    rw [contextAt_inside joint some_inside bound, read, Cursor.reader,
      reads.through_inside some_front goes_on, Cursor.start_after_offset]
    rfl

/-- A reader reports its depth. -/
lemma Reader.depth_report (reader : Reader) : reader.report.depth = reader.depth := by
  obtain ⟨count, mode, depth⟩ := reader
  cases mode <;> rfl

/-- At the end of the text, the depth is that behind all lexemes, also where a comment or string is
not closed. -/
lemma depth_readTo_end (text : List Char) :
    (Reader.readTo text text.length).depth = (Cursor.start.after (lexemes text)).depth := by
  have length : text.length = (written (lexemes text)).length := length_eq_of_lexemes rfl
  by_cases closed : AllClosed (lexemes text)
  · rw [length, readTo_joint (List.append_nil _).symm closed]
    rfl
  · obtain ⟨lexeme, mem, is_open⟩ : ∃ lexeme ∈ lexemes text, lexeme.isOpen = true := by
      simpa [AllClosed] using closed
    obtain ⟨before, behind, joint⟩ := List.append_of_mem mem
    have stream := (lexemes_eq_iff.1 joint).1
    obtain rfl := stream.nil_of_isOpen is_open
    cases lexeme with
    | region kind body is_closed =>
      obtain rfl : is_closed = false := by simpa [Lexeme.isOpen] using is_open
      have parts : (Lexeme.region kind body false).text = body ++ [] := (List.append_nil body).symm
      have reads := stream.reads
      have some_body : body ≠ [] := reads.text_ne_nil
      rw [← List.append_nil body] at reads
      have read := reads.through_inside some_body (.inr rfl) (Cursor.start.after before).offset
        (Cursor.start.after before).depth
      rw [length, joint, written_append, written_cons, written_nil, List.append_nil,
        List.length_append, Lexeme.text, readTo_inside joint parts, ← Reader.depth_report,
        Cursor.reader, read, Cursor.after_append]
      rfl
    | _ => cases is_open

/-- What surrounds an offset is what a reader knows that has come to it character by character.
Offsets before the text are read as its beginning. Behind the text there is no comment or string,
and the depth is that of its end. -/
theorem contextAt_report (text : List Char) (offset : Int) :
    ((Script.ofText text).contextAt offset).report
      = if offset ≤ text.length then (Reader.readTo text offset.toNat).report
        else ⟨false, false, none, (Reader.readTo text text.length).depth⟩ := by
  split
  · rename_i within
    rcases Int.le_total offset 0 with not_positive | positive
    · rw [contextAt_nonpos not_positive, Int.toNat_of_nonpos not_positive]
      exact report_of_place (place_of_le (Nat.zero_le _))
    · obtain ⟨place, rfl⟩ := Int.eq_ofNat_of_zero_le positive
      exact report_of_place (place_of_le (by omega))
  · rename_i beyond
    rw [contextAt_beyond (by omega), depth_readTo_end]
    rfl

-- The slash behind the opening `/*` does not close the comment.
example : (Reader.readTo "(/*/')".toList 6).report = ⟨true, false, some 1, 1⟩ := by decide

end KixScript

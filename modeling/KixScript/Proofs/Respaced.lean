import KixScript.Proofs.Places

/-!
# Other blanks at the head of lines

Lexemes that differ only in the blanks at the head of lines (`Respaced`). Such blanks stand between
lexemes that have an end of their own, so changing them gives a stream again (`Respaced.stream`). And
they change nothing that is known before another lexeme, so the tokens are the same
(`Respaced.tokens`).
-/

namespace KixScript

/-- The lexemes that end a line. A line comment takes the line feed with it. -/
def Lexeme.endsLine : Lexeme → Bool
  | .space c => c == '\n'
  | .region .lineComment _ closed => closed
  | _ => false

/-- What ends a line ends by itself. -/
lemma Lexeme.selfEnding_of_endsLine {lexeme : Lexeme} (ends : lexeme.endsLine = true) :
    lexeme.selfEnding = true := by
  match lexeme, ends with
  | .space c, _ => rfl
  | .region .lineComment _ true, _ => rfl

/-- Lexemes that differ only in the blanks at the head of lines. The index tells whether a line
begins here. -/
inductive Respaced : Bool → List Lexeme → List Lexeme → Prop where
  | nil {fresh} : Respaced fresh [] []
  | drop {c rest rest'} :
    isBlank c = true →
    Respaced true rest rest' →
    Respaced true (.space c :: rest) rest'
  | add {rest rest'} :
    Respaced true rest rest' →
    Respaced true rest (.space ' ' :: rest')
  | cons {fresh lexeme rest rest'} :
    Respaced lexeme.endsLine rest rest' →
    Respaced fresh (lexeme :: rest) (lexeme :: rest')

/-- Lexemes respaced in the middle of a line can stand at its beginning. -/
lemma Respaced.at_line {lexemes lexemes' : List Lexeme} (respaced : Respaced false lexemes lexemes') :
    Respaced true lexemes lexemes' := by
  cases respaced with
  | nil => exact .nil
  | cons rest => exact .cons rest

/-- At the beginning of a line spaces can be added. -/
lemma Respaced.add_spaces {lexemes lexemes' : List Lexeme}
    (respaced : Respaced true lexemes lexemes') (count : Nat) :
    Respaced true lexemes (List.replicate count (.space ' ') ++ lexemes') := by
  induction count with
  | zero => exact respaced
  | succ count ih =>
    rw [List.replicate_succ, List.cons_append]
    exact .add ih

/-- Inside of a line, both texts look alike to the lexeme before them. -/
lemma Respaced.sameFront {fresh : Bool} {lexemes lexemes' : List Lexeme}
    (respaced : Respaced fresh lexemes lexemes') (inside : fresh = false) (stream : Stream lexemes) :
    SameFront (written lexemes) (written lexemes') := by
  induction respaced with
  | nil => exact SameFront.refl _
  | drop _ _ _ => cases inside
  | add _ _ => cases inside
  | @cons fresh lexeme rest rest' _ ih =>
    rw [written_cons, written_cons]
    cases stream with
    | cons reads stream =>
      cases ends : lexeme.endsLine with
      | false => exact (ih ends stream).append_left lexeme.text
      | true =>
        -- What ends a line hides all that comes behind it.
        have no_slash := reads.text_ne_slash (Lexeme.selfEnding_of_endsLine ends)
        have before := SameFront.append_right reads.text_ne_nil no_slash (written rest)
        have before' := SameFront.append_right reads.text_ne_nil no_slash (written rest')
        exact before.symm.trans before'

/-- Changing the blanks at the head of lines gives a stream again. -/
lemma Respaced.stream {fresh : Bool} {lexemes lexemes' : List Lexeme}
    (respaced : Respaced fresh lexemes lexemes') (stream : Stream lexemes) : Stream lexemes' := by
  induction respaced with
  | nil => exact .nil
  | drop _ _ ih =>
    cases stream with
    | cons _ stream => exact ih stream
  | add _ ih => exact .cons rfl (ih stream)
  | @cons fresh lexeme rest rest' respaced ih =>
    cases stream with
    | cons reads stream =>
      refine .cons ?_ (ih stream)
      cases ends : lexeme.endsLine with
      | false => exact reads.of_sameFront (respaced.sameFront ends stream)
      | true => exact reads.of_selfEnding (Lexeme.selfEnding_of_endsLine ends) _

/-- A lexeme without the text of a comment or string that runs into the end. -/
def Lexeme.core : Lexeme → Lexeme
  | .region kind _ false => .region kind [] false
  | lexeme => lexeme

/-- Whether a lexeme is a blank or a line end. -/
def Lexeme.isSpace : Lexeme → Bool
  | .space _ => true
  | _ => false

/-- What is known of a lexeme that is no space, apart from its offset. -/
structure Token where
  lexeme : Lexeme
  depth : Nat
  afterDot : Bool
  lead : DeclarationLead
  line : Nat
  deriving DecidableEq, Repr

/-- The token that a lexeme is, behind a cursor on some line. -/
def Lexeme.token (lexeme : Lexeme) (cursor : Cursor) (line : Nat) : Token :=
  ⟨lexeme.core, cursor.depth, cursor.afterDot, cursor.lead, line⟩

/-- The tokens of some lexemes, the first one behind a cursor on some line. -/
def tokensFrom (line : Nat) (cursor : Cursor) : List Lexeme → List Token
  | [] => []
  | lexeme :: rest =>
    (if lexeme.isSpace then [] else [lexeme.token cursor line])
      ++ tokensFrom (line + lexeme.text.count '\n') (cursor.advance lexeme) rest

/-- The tokens of a text. -/
def tokens (text : List Char) : List Token :=
  tokensFrom 0 .start (lexemes text)

/-- Two cursors know the same, apart from the offset. -/
structure Cursor.Alike (cursor cursor' : Cursor) : Prop where
  depth : cursor.depth = cursor'.depth
  afterDot : cursor.afterDot = cursor'.afterDot
  lead : cursor.lead = cursor'.lead

/-- What may come behind a lexeme hangs on the word or the blanks before it alone. -/
lemma Cursor.leadAfter_congr {cursor cursor' : Cursor} (dot : cursor.afterDot = cursor'.afterDot)
    (lead : cursor.lead = cursor'.lead) (lexeme : Lexeme) :
    cursor.leadAfter lexeme = cursor'.leadAfter lexeme := by
  cases lexeme with
  | word text =>
    have keyword : cursor.keyword? text = cursor'.keyword? text := by
      rw [Cursor.keyword?, Cursor.keyword?, dot]
    rw [Cursor.leadAfter, Cursor.leadAfter, keyword]
  | space c => rw [Cursor.leadAfter, Cursor.leadAfter, lead]
  | _ => rfl

/-- Cursors that are alike stay so behind a lexeme. -/
lemma Cursor.Alike.advance {cursor cursor' : Cursor} (alike : cursor.Alike cursor')
    (lexeme : Lexeme) : (cursor.advance lexeme).Alike (cursor'.advance lexeme) := by
  obtain ⟨depth, dot, lead⟩ := alike
  refine ⟨?_, rfl, Cursor.leadAfter_congr dot lead lexeme⟩
  rw [Cursor.advance, Cursor.advance, depth]

/-- The cursor knows nothing but the depth, as it is where a line begins. -/
structure Cursor.Fresh (cursor : Cursor) : Prop where
  afterDot : cursor.afterDot = false
  lead : cursor.lead = .absent

/-- The first cursor is fresh. -/
lemma Cursor.fresh_start : Cursor.start.Fresh := ⟨rfl, rfl⟩

/-- What ends a line leaves nothing to know. -/
lemma Cursor.fresh_of_endsLine {lexeme : Lexeme} {rest : List Char} (reads : lexeme.Reads rest)
    (ends : lexeme.endsLine = true) (cursor : Cursor) : (cursor.advance lexeme).Fresh := by
  match lexeme, reads, ends with
  | .space c, _, ends =>
    obtain rfl : c = '\n' := by simpa [Lexeme.endsLine] using ends
    exact ⟨rfl, rfl⟩
  | .region .lineComment _ true, ⟨body, rfl, closed⟩, _ =>
    obtain ⟨front, rfl⟩ := ClosedBy.exists_append closed
    refine ⟨?_, rfl⟩
    rw [Cursor.advance, Lexeme.text, ← List.cons_append, List.getLast?_concat]
    rfl

/-- A blank where a line begins leaves nothing to know. -/
lemma Cursor.Fresh.blank {cursor : Cursor} (fresh : cursor.Fresh) {c : Char}
    (blank : isBlank c = true) : (cursor.advance (.space c)).Fresh := by
  refine ⟨?_, ?_⟩
  · have no_dot : c ≠ '.' := by
      rintro rfl
      cases blank
    simp [Cursor.advance, Lexeme.text, no_dot]
  · simp [Cursor.advance, Cursor.leadAfter, fresh.lead]

/-- Fresh cursors at the same depth are alike. -/
lemma Cursor.Fresh.alike {cursor cursor' : Cursor} (fresh : cursor.Fresh) (fresh' : cursor'.Fresh)
    (depth : cursor.depth = cursor'.depth) : cursor.Alike cursor' :=
  ⟨depth, fresh.afterDot.trans fresh'.afterDot.symm, fresh.lead.trans fresh'.lead.symm⟩

/-- No blank is a line feed. -/
lemma no_newline_of_blank {c : Char} (blank : isBlank c = true) : c ≠ '\n' := by
  rintro rfl
  cases blank

/-- A blank is no token. -/
lemma tokensFrom_blank {c : Char} (blank : isBlank c = true) (line : Nat) (cursor : Cursor)
    (rest : List Lexeme) :
    tokensFrom line cursor (.space c :: rest)
      = tokensFrom line (cursor.advance (.space c)) rest := by
  have none_here : (Lexeme.space c).text.count '\n' = 0 :=
    List.count_eq_zero.2 fun mem => no_newline_of_blank blank (List.mem_singleton.1 mem).symm
  rw [tokensFrom, none_here]
  rfl

/-- Lexemes that differ only in the blanks at the head of lines have the same tokens. -/
lemma Respaced.tokens {fresh : Bool} {lexemes lexemes' : List Lexeme}
    (respaced : Respaced fresh lexemes lexemes') (stream : Stream lexemes) {cursor cursor' : Cursor}
    (alike : cursor.Alike cursor') (at_line : fresh = true → cursor.Fresh) (line : Nat) :
    tokensFrom line cursor lexemes = tokensFrom line cursor' lexemes' := by
  induction respaced generalizing cursor cursor' line with
  | nil => rfl
  | @drop c rest rest' blank _ ih =>
    have here := at_line rfl
    have here' : cursor'.Fresh := ⟨alike.afterDot ▸ here.afterDot, alike.lead ▸ here.lead⟩
    have behind := here.blank blank
    cases stream with
    | cons _ stream =>
      rw [tokensFrom_blank blank]
      exact ih stream (behind.alike here' alike.depth) (fun _ => behind) line
  | @add rest rest' _ ih =>
    have here := at_line rfl
    have here' : cursor'.Fresh := ⟨alike.afterDot ▸ here.afterDot, alike.lead ▸ here.lead⟩
    have behind' : (cursor'.advance (.space ' ')).Fresh := here'.blank rfl
    rw [tokensFrom_blank rfl]
    exact ih stream (here.alike behind' alike.depth) at_line line
  | @cons fresh lexeme rest rest' _ ih =>
    cases stream with
    | cons reads stream =>
      have here : lexeme.token cursor line = lexeme.token cursor' line := by
        rw [Lexeme.token, Lexeme.token, alike.depth, alike.afterDot, alike.lead]
      rw [tokensFrom, tokensFrom, here,
        ih stream (alike.advance lexeme) fun ends => Cursor.fresh_of_endsLine reads ends cursor]

/-- Respaced lexemes have the same tokens. -/
lemma tokens_eq_of_respaced {text : List Char} {parts : List Lexeme}
    (respaced : Respaced true (lexemes text) parts) : tokens (written parts) = tokens text := by
  have stream := lexemes_stream text
  rw [tokens, (respaced.stream stream).lexemes_written, tokens]
  exact (respaced.tokens stream ⟨rfl, rfl, rfl⟩ (fun _ => Cursor.fresh_start) 0).symm

/-- A carriage return ends a run of punctuation. -/
lemma punctuationRun_return (text : List Char) :
    punctuationRun (text ++ ['\r'])
      = ((punctuationRun text).1, (punctuationRun text).2 ++ ['\r']) := by
  induction text with
  | nil => rfl
  | cons c rest ih =>
    have opens : opensBlockComment c (rest ++ ['\r']) = opensBlockComment c rest := by
      cases rest with
      | nil => simp [opensBlockComment]
      | cons d more => rfl
    rw [List.cons_append, punctuationRun, punctuationRun, opens, ih]
    split <;> rfl

/-- A carriage return makes no mark that has none in it. -/
lemma cutAfter?_return {mark body : List Char} (some_mark : mark ≠ []) (no_return : '\r' ∉ mark)
    (uncut : cutAfter? mark body = none) : cutAfter? mark (body ++ ['\r']) = none := by
  have absent : ∀ {text : List Char}, ¬ mark.isPrefixOf text = true →
      ¬ mark.isPrefixOf (text ++ ['\r']) = true := by
    intro text absent found
    rw [List.isPrefixOf_iff_prefix] at absent found
    rcases List.prefix_concat_iff.1 found with whole | inside
    · exact no_return (whole ▸ List.mem_append_right text List.mem_cons_self)
    · exact absent inside
  induction body with
  | nil =>
    have not_here : ¬ mark.isPrefixOf ['\r'] = true := @absent [] (by simpa using some_mark)
    rw [List.nil_append, cutAfter?, if_neg not_here]
    rfl
  | cons c rest ih =>
    rw [cutAfter?] at uncut
    split at uncut
    · cases uncut
    · rename_i not_here
      rw [List.cons_append, cutAfter?, ← List.cons_append, if_neg (absent not_here),
        ih (Option.map_eq_none_iff.1 uncut)]
      rfl

/-- A carriage return at the end of the text is seen by no lexeme but one that runs into the end. -/
lemma Lexeme.Reads.append_return {lexeme : Lexeme} {rest : List Char} (reads : lexeme.Reads rest)
    (closed : lexeme.isOpen = false) : lexeme.Reads (rest ++ ['\r']) := by
  match lexeme, reads with
  | .word text, ⟨some_text, word_chars, stop⟩ =>
    refine ⟨some_text, word_chars, ?_⟩
    cases rest with
    | nil =>
      intro c mem
      obtain rfl : '\r' = c := by simpa using mem
      decide
    | cons d more => exact stop
  | .punctuation text, ⟨some_text, run⟩ =>
    refine ⟨some_text, ?_⟩
    rw [← List.append_assoc, punctuationRun_return, run]
  | .space c, reads => exact reads
  | .opening, _ => trivial
  | .closing, _ => trivial
  | .region kind text true, reads => exact reads.of_selfEnding rfl _

/-- The lexemes of a text with a carriage return at its end. -/
def withReturn : List Lexeme → List Lexeme
  | [] => [.space '\r']
  | .region kind body false :: _ => [.region kind (body ++ ['\r']) false]
  | lexeme :: rest => lexeme :: withReturn rest

/-- A carriage return goes behind a lexeme that is closed. -/
lemma withReturn_cons {lexeme : Lexeme} (closed : lexeme.isOpen = false) (rest : List Lexeme) :
    withReturn (lexeme :: rest) = lexeme :: withReturn rest := by
  match lexeme, closed with
  | .region kind text true, _ => rfl
  | .space c, _ => rfl
  | .word text, _ => rfl
  | .punctuation text, _ => rfl
  | .opening, _ => rfl
  | .closing, _ => rfl

/-- A comment or string that runs into the end takes a carriage return there in. -/
lemma Lexeme.Reads.extend {kind : RegionKind} {body rest : List Char}
    (reads : (Lexeme.region kind body false).Reads rest) :
    (Lexeme.region kind (body ++ ['\r']) false).Reads rest := by
  cases kind with
  | string =>
    obtain ⟨quote, inner, is_quote, rfl, uncut, nothing⟩ := reads
    have no_return : '\r' ∉ [quote] := by
      intro mem
      rw [← List.mem_singleton.1 mem] at is_quote
      cases is_quote
    exact ⟨quote, inner ++ ['\r'], is_quote, rfl,
      cutAfter?_return (List.cons_ne_nil _ _) no_return uncut, nothing⟩
  | lineComment =>
    obtain ⟨inner, rfl, uncut, nothing⟩ := reads
    exact ⟨inner ++ ['\r'], rfl, cutAfter?_return (List.cons_ne_nil _ _) (by decide) uncut, nothing⟩
  | blockComment =>
    obtain ⟨inner, rfl, uncut, nothing⟩ := reads
    exact ⟨inner ++ ['\r'], rfl, cutAfter?_return (List.cons_ne_nil _ _) (by decide) uncut, nothing⟩

/-- A lexeme that is left open is a comment or string. -/
lemma Lexeme.exists_of_isOpen {lexeme : Lexeme} (is_open : lexeme.isOpen = true) :
    ∃ kind body, lexeme = .region kind body false := by
  match lexeme, is_open with
  | .region kind body false, _ => exact ⟨kind, body, rfl⟩

/-- The lexemes are written with the carriage return behind them. -/
lemma written_withReturn {lexemes : List Lexeme} (stream : Stream lexemes) :
    written (withReturn lexemes) = written lexemes ++ ['\r'] := by
  induction stream with
  | nil => rfl
  | @cons lexeme rest reads stream ih =>
    cases is_open : lexeme.isOpen with
    | false =>
      rw [withReturn_cons is_open, written_cons, written_cons, ih, List.append_assoc]
    | true =>
      obtain ⟨kind, body, rfl⟩ := Lexeme.exists_of_isOpen is_open
      obtain rfl : rest = [] := @Stream.nil_of_isOpen [] rest _ (.cons reads stream) rfl
      simp [withReturn, Lexeme.text]

/-- With a carriage return behind them, lexemes are read as before. -/
lemma stream_withReturn {lexemes : List Lexeme} (stream : Stream lexemes) :
    Stream (withReturn lexemes) := by
  induction stream with
  | nil => exact .cons rfl .nil
  | @cons lexeme rest reads stream ih =>
    cases is_open : lexeme.isOpen with
    | false =>
      rw [withReturn_cons is_open]
      refine .cons ?_ ih
      rw [written_withReturn stream]
      exact reads.append_return is_open
    | true =>
      obtain ⟨kind, body, rfl⟩ := Lexeme.exists_of_isOpen is_open
      obtain rfl : rest = [] := @Stream.nil_of_isOpen [] rest _ (.cons reads stream) rfl
      exact .cons reads.extend .nil

/-- A carriage return at the end is no token. -/
lemma tokensFrom_withReturn {lexemes : List Lexeme} (stream : Stream lexemes) (line : Nat)
    (cursor : Cursor) :
    tokensFrom line cursor (withReturn lexemes) = tokensFrom line cursor lexemes := by
  induction stream generalizing line cursor with
  | nil => rfl
  | @cons lexeme rest reads stream ih =>
    cases is_open : lexeme.isOpen with
    | false => rw [withReturn_cons is_open, tokensFrom, tokensFrom, ih]
    | true =>
      obtain ⟨kind, body, rfl⟩ := Lexeme.exists_of_isOpen is_open
      obtain rfl : rest = [] := @Stream.nil_of_isOpen [] rest _ (.cons reads stream) rfl
      rfl

/-- A text has the same tokens with a carriage return at its end. -/
lemma tokens_append_return (text : List Char) : tokens (text ++ ['\r']) = tokens text := by
  have stream := lexemes_stream text
  have parts : lexemes (text ++ ['\r']) = withReturn (lexemes text) := by
    rw [lexemes_eq_iff, written_withReturn stream]
    exact ⟨stream_withReturn stream, by rw [written, lexemes_text]⟩
  rw [tokens, parts, tokensFrom_withReturn stream, tokens]

end KixScript

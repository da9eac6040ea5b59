import KixScript.Proofs.Contents
import KixScript.Proofs.Respaced
import KixScript.Proofs.Views

/-!
# Indenting keeps the tokens

A line that begins in code begins between two lexemes, with blanks that are lexemes of their own; a
line that begins in a comment or string is kept. So a text with the same contents is made of the same
lexemes, but for the blanks at the head of lines (`exists_respaced`), and nothing but offsets changes
in what is found in it (`reindent_keeps_views`).
-/

namespace KixScript

namespace Lexeme

/-- A comment or string that is closed, and no line comment, ends with its mark. -/
lemma Reads.exists_concat {kind : RegionKind} {body rest : List Char}
    (reads : (region kind body true).Reads rest) (no_line : kind ≠ .lineComment) :
    ∃ front c, body = front ++ [c] ∧ isBlank c = false ∧ c ≠ '\n' := by
  cases kind with
  | string =>
    obtain ⟨quote, inner, is_quote, rfl, closed⟩ := reads
    obtain ⟨front, rfl⟩ := ClosedBy.exists_append closed
    have two : quote = '"' ∨ quote = '\x27' := by simpa [isQuote] using is_quote
    refine ⟨quote :: front, quote, rfl, ?_, ?_⟩
    · rcases two with rfl | rfl <;> rfl
    · rcases two with rfl | rfl <;> decide
  | lineComment => exact absurd rfl no_line
  | blockComment =>
    obtain ⟨inner, rfl, closed⟩ := reads
    obtain ⟨front, rfl⟩ := ClosedBy.exists_append closed
    exact ⟨'/' :: '*' :: (front ++ ['*']), '/', by simp, rfl, by decide⟩

/-- A lexeme holds no line feed, or ends with its only one, or is a string or block comment. -/
lemma Reads.newlines {lexeme : Lexeme} {rest : List Char} (reads : lexeme.Reads rest) :
    ('\n' ∉ lexeme.text ∧ lexeme.endsLine = false) ∨
      (lexeme.endsLine = true ∧ ∃ front, lexeme.text = front ++ ['\n'] ∧ '\n' ∉ front) ∨
      ∃ kind body closed, lexeme = region kind body closed ∧ kind ≠ .lineComment := by
  match lexeme, reads with
  | space c, _ =>
    by_cases same : c = '\n'
    · subst same
      exact .inr (.inl ⟨rfl, [], rfl, List.not_mem_nil⟩)
    · refine .inl ⟨fun mem => same (List.mem_singleton.1 mem).symm, ?_⟩
      rw [endsLine, beq_false_of_ne same]
  | word text, ⟨_, word_chars, _⟩ =>
    refine .inl ⟨fun mem => ?_, rfl⟩
    exact absurd (word_chars '\n' mem) (by decide)
  | punctuation run, ⟨_, runs⟩ =>
    refine .inl ⟨fun mem => ?_, rfl⟩
    exact absurd (not_endsPunctuation_of_run runs '\n' mem) (by decide)
  | opening, _ => exact .inl ⟨by decide, rfl⟩
  | closing, _ => exact .inl ⟨by decide, rfl⟩
  | region .lineComment _ true, ⟨body, rfl, closed⟩ =>
    obtain ⟨front, rfl, nowhere⟩ := ClosedBy.exists_concat closed
    refine .inr (.inl ⟨rfl, ';' :: front, rfl, ?_⟩)
    simpa using nowhere
  | region .lineComment _ false, ⟨body, rfl, uncut, _⟩ =>
    have nowhere := not_mem_of_uncut uncut
    exact .inl ⟨by simpa [text] using nowhere, rfl⟩
  | region .string body closed, _ => exact .inr (.inr ⟨.string, body, closed, rfl, by decide⟩)
  | region .blockComment body closed, _ =>
    exact .inr (.inr ⟨.blockComment, body, closed, rfl, by decide⟩)

/-- A lexeme that begins with a blank is the blank. -/
lemma Reads.isBlank_of_head {lexeme : Lexeme} {rest : List Char} (reads : lexeme.Reads rest)
    {c : Char} (head : lexeme.text.head? = some c) (blank : isBlank c = true) :
    lexeme = space c := by
  obtain ⟨d, more, same, reads_first⟩ := reads.first
  have begins := congrArg List.head? same
  rw [List.head?_append, head] at begins
  obtain rfl : c = d := Option.some.inj begins
  rw [first_space (by rw [blank, Bool.true_or])] at reads_first
  exact (congrArg Prod.fst reads_first).symm

end Lexeme

/-- A row that begins with no blank has none at its head. -/
lemma dropWhile_first_row {c : Char} {rest row : List Char} {more : List (List Char)}
    (first : rows (c :: rest) = row :: more) (no_blank : isBlank c = false) :
    row.takeWhile isBlank = [] ∧ row.dropWhile isBlank = row := by
  by_cases same : c = '\n'
  · rw [same, rows_newline] at first
    obtain ⟨rfl, _⟩ := List.cons.inj first
    exact ⟨rfl, rfl⟩
  · obtain ⟨row', more', split⟩ := exists_rows rest
    rw [rows_cons same split] at first
    obtain ⟨rfl, _⟩ := List.cons.inj first
    simp [no_blank]

/-- The lexemes of a text begin with the blanks of its first row. -/
lemma Stream.exists_blanks {lexemes : List Lexeme} (stream : Stream lexemes) {row : List Char}
    {more : List (List Char)} (first : rows (written lexemes) = row :: more) :
    ∃ rest, lexemes = (row.takeWhile isBlank).map .space ++ rest := by
  induction stream generalizing row more with
  | nil =>
    obtain ⟨rfl, _⟩ := List.cons.inj first
    exact ⟨[], rfl⟩
  | @cons lexeme rest reads stream ih =>
    obtain ⟨c, text, split⟩ := List.exists_cons_of_ne_nil reads.text_ne_nil
    cases blank : isBlank c with
    | true =>
      obtain rfl := reads.isBlank_of_head (by rw [split]; rfl) blank
      obtain ⟨row', more', split'⟩ := exists_rows (written rest)
      rw [written_cons, Lexeme.text, List.singleton_append,
        rows_cons (no_newline_of_blank blank) split'] at first
      obtain ⟨rfl, _⟩ := List.cons.inj first
      obtain ⟨rest', rfl⟩ := ih split'
      exact ⟨rest', by simp [blank]⟩
    | false =>
      rw [written_cons, split, List.cons_append] at first
      rw [(dropWhile_first_row first blank).1]
      exact ⟨lexeme :: rest, rfl⟩

/-- Spaces are written as the blanks that they are. -/
lemma written_spaces (blanks : List Char) : written (blanks.map .space) = blanks := by
  induction blanks with
  | nil => rfl
  | cons c more ih => rw [List.map_cons, written_cons, ih, Lexeme.text, List.singleton_append]

section
variable {text : List Char} {before rest : List Lexeme} {row : List Char} {more : List (List Char)}

/-- A line that begins at a joint begins in code, and its blanks are replaced by spaces. -/
lemma Relaid.at_joint (joint : lexemes text = before ++ rest) (closed : AllClosed before)
    (first : rows (written rest) = row :: more) {row' : List Char}
    (relaid : Relaid (Script.ofText text) ⟨(written before).length, row⟩ row') :
    ∃ count, row' = List.replicate count ' ' ++ row.dropWhile isBlank := by
  have stream := (lexemes_eq_iff.1 joint).1.of_append_right
  obtain ⟨rest', split⟩ := stream.exists_blanks first
  have joint' : lexemes text = (before ++ (row.takeWhile isBlank).map .space) ++ rest' := by
    rw [joint, split, List.append_assoc]
  have closed' : AllClosed (before ++ (row.takeWhile isBlank).map .space) := by
    refine allClosed_append.2 ⟨closed, ?_⟩
    intro lexeme mem
    obtain ⟨c, _, rfl⟩ := List.mem_map.1 mem
    rfl
  have context := contextAt_joint joint' closed'
  rw [written_append, written_spaces, List.length_append] at context
  have in_code : ((Script.ofText text).contextAt
      ((written before).length + (row.takeWhile isBlank).length : Nat)).inCode = true := by
    rw [context]
    rfl
  rw [Relaid, if_pos in_code] at relaid
  exact relaid

/-- Rows that begin in a comment or string are kept. -/
lemma exists_kept_rows {script : Script} {start : Nat} {kept rest all : List (List Char)}
    (relaid : List.Forall₂ (Relaid script) (linesFrom start (kept ++ rest)) all)
    (not_in_code : ∀ line ∈ linesFrom start kept,
      (script.contextAt (line.start + (line.row.takeWhile isBlank).length : Nat)).inCode = false) :
    ∃ all', all = kept ++ all' ∧ List.Forall₂ (Relaid script)
      (linesFrom (start + (kept.flatMap (· ++ ['\n'])).length) rest) all' := by
  induction kept generalizing start all with
  | nil => exact ⟨all, rfl, relaid⟩
  | cons row more ih =>
    rw [List.cons_append, linesFrom] at relaid
    rw [linesFrom] at not_in_code
    obtain ⟨row', below, here, relaid_below, rfl⟩ := List.forall₂_cons_left_iff.1 relaid
    have kept_here := not_in_code _ List.mem_cons_self
    rw [Relaid, kept_here, if_neg Bool.false_ne_true] at here
    obtain ⟨all', rfl, relaid'⟩ := ih relaid_below fun line mem =>
      not_in_code line (List.mem_cons_of_mem _ mem)
    refine ⟨all', by rw [here, List.cons_append], ?_⟩
    rwa [List.flatMap_cons, List.length_append, List.length_append, List.length_singleton,
      ← Nat.add_assoc, ← Nat.add_assoc]

/-- Blanks end before a character that is none. -/
lemma length_takeWhile_lt {front behind : List Char} {c : Char} (no_blank : isBlank c = false) :
    ((front ++ [c] ++ behind).takeWhile isBlank).length < (front ++ [c]).length := by
  induction front with
  | nil => simp [no_blank]
  | cons d more ih =>
    cases blank : isBlank d with
    | true => simpa [blank] using ih
    | false => simp [blank]

/-- The last row of a comment or string ends with a character that is no blank. -/
lemma exists_last_concat {kind : RegionKind} {body behind : List Char}
    (reads : (Lexeme.region kind body true).Reads behind) (no_line : kind ≠ .lineComment)
    {above : List (List Char)} {row₀ last : List Char}
    (split : body = (row₀ :: above).flatMap (· ++ ['\n']) ++ last) :
    ∃ front c, last = front ++ [c] ∧ isBlank c = false := by
  obtain ⟨front, c, ends, no_blank, no_newline⟩ := reads.exists_concat no_line
  rw [ends] at split
  rcases List.eq_nil_or_concat last with rfl | ⟨front', c', rfl⟩
  · -- The row is empty, so the body ends with a line feed.
    rcases List.eq_nil_or_concat (row₀ :: above) with nothing | ⟨first, next, same⟩
    · cases nothing
    · rw [same, List.concat_eq_append, List.append_nil, List.flatMap_append, List.flatMap_singleton,
        ← List.append_assoc] at split
      exact absurd (List.cons.inj (List.append_inj' split rfl).2).1 no_newline
  · rw [List.concat_eq_append, ← List.append_assoc] at split
    obtain rfl := (List.cons.inj (List.append_inj' split rfl).2).1
    exact ⟨front', c, List.concat_eq_append, no_blank⟩

/-- The lines that begin inside of a string or block comment do not begin in code. -/
lemma not_inCode_of_region {kind : RegionKind} {body : List Char} {closed : Bool}
    (joint : lexemes text = before ++ .region kind body closed :: rest)
    (no_line : kind ≠ .lineComment) {above : List (List Char)} {row₀ last : List Char}
    (split : body = (row₀ :: above).flatMap (· ++ ['\n']) ++ last)
    (first : rows (written rest) = row :: more) :
    ∀ line ∈ linesFrom ((written before).length + row₀.length + 1) (above ++ [last ++ row]),
      ((Script.ofText text).contextAt
        (line.start + (line.row.takeWhile isBlank).length : Nat)).inCode = false := by
  intro line mem
  obtain ⟨upper, lower, parts, start⟩ := exists_of_mem_linesFrom mem
  have length : body.length
      = row₀.length + 1 + (above.flatMap (· ++ ['\n'])).length + last.length := by
    rw [split, List.flatMap_cons, List.length_append, List.length_append, List.length_append,
      List.length_singleton]
  have blanks := (List.takeWhile_sublist isBlank (l := line.row)).length_le
  obtain ⟨inside, place, some_inside, bound⟩ : ∃ inside,
      line.start + (line.row.takeWhile isBlank).length = (written before).length + inside ∧
      0 < inside ∧ (inside < body.length ∨ closed = false ∧ inside = body.length) := by
    refine ⟨row₀.length + 1 + (upper.flatMap (· ++ ['\n'])).length
      + (line.row.takeWhile isBlank).length, by omega, by omega, ?_⟩
    rcases List.eq_nil_or_concat lower with rfl | ⟨lower, other, rfl⟩
    · -- The last of these lines goes on behind the comment or string.
      obtain ⟨rfl, same⟩ := List.append_inj' parts rfl
      have same : last ++ row = line.row := (List.cons.inj same).1
      have stream := (lexemes_eq_iff.1 joint).1
      cases closed with
      | true =>
        obtain ⟨front, c, rfl, no_blank⟩ := exists_last_concat stream.reads no_line split
        -- The closing mark is no blank, so the blanks of this line end before it.
        have shorter := @length_takeWhile_lt front row c no_blank
        rw [same] at shorter
        exact .inl (by omega)
      | false =>
        obtain rfl : rest = [] := stream.nil_of_isOpen rfl
        obtain ⟨rfl, _⟩ := List.cons.inj first
        rw [List.append_nil] at same
        rw [← same] at blanks ⊢
        have bound : row₀.length + 1 + (above.flatMap (· ++ ['\n'])).length
            + (last.takeWhile isBlank).length ≤ body.length := by omega
        exact (Nat.lt_or_eq_of_le bound).imp_right fun at_end => ⟨rfl, at_end⟩
    · rw [List.concat_eq_append, ← List.cons_append, ← List.append_assoc] at parts
      obtain ⟨rfl, _⟩ := List.append_inj' parts rfl
      rw [List.flatMap_append, List.flatMap_cons, List.length_append, List.length_append,
        List.length_append, List.length_singleton] at length
      exact .inl (by omega)
  rw [place, contextAt_inside joint some_inside bound]
  rfl

/-- The rest of the row at a joint: inside of a line it is kept, and at the head of a line spaces take
the place of its blanks. -/
def RowKept (fresh : Bool) (row row' : List Char) : Prop :=
  if fresh then ∃ count, row' = List.replicate count ' ' ++ row.dropWhile isBlank else row' = row

/-- From a joint on, a text whose lines keep their contents is made of the same lexemes, but for the
blanks at the head of lines. -/
def Remade (text : List Char) (before rest : List Lexeme) (fresh : Bool) : Prop :=
  ∀ ⦃row row' more all⦄, rows (written rest) = row :: more → RowKept fresh row row' →
    List.Forall₂ (Relaid (Script.ofText text))
      (linesFrom ((written before).length + row.length + 1) more) all →
    ∃ parts, Respaced fresh rest parts ∧ written parts = unrows (row' :: all)

/-- One lexeme more is written behind. -/
lemma length_written_concat (before : List Lexeme) (lexeme : Lexeme) :
    (written (before ++ [lexeme])).length = (written before).length + lexeme.text.length := by
  rw [written_append, written_cons, written_nil, List.append_nil, List.length_append]

/-- No lexemes are remade from no rows. -/
lemma remade_nil (text : List Char) (before : List Lexeme) : Remade text before [] false := by
  intro row row' more all first kept relaid
  obtain ⟨rfl, rfl⟩ := List.cons.inj first
  obtain rfl := List.forall₂_nil_left_iff.1 relaid
  obtain rfl : row' = [] := kept
  exact ⟨[], .nil, rfl⟩

/-- A lexeme inside of a line is kept. -/
lemma Remade.plain {lexeme : Lexeme} (no_newline : '\n' ∉ lexeme.text)
    (ends : lexeme.endsLine = false) (behind : Remade text (before ++ [lexeme]) rest false) :
    Remade text before (lexeme :: rest) false := by
  intro row row' more all first kept relaid
  obtain rfl : row' = row := kept
  obtain ⟨row₁, more₁, first₁⟩ := exists_rows (written rest)
  rw [written_cons, rows_append no_newline first₁] at first
  obtain ⟨rfl, rfl⟩ := List.cons.inj first
  rw [List.length_append, ← Nat.add_assoc, ← length_written_concat] at relaid
  obtain ⟨parts, respaced, same⟩ := behind first₁ rfl relaid
  refine ⟨lexeme :: parts, .cons (by rwa [ends]), ?_⟩
  rw [written_cons, same, unrows_cons_append]

/-- A lexeme that ends a line is kept, and the next line is fresh. -/
lemma Remade.ending {lexeme : Lexeme} (joint : lexemes text = before ++ lexeme :: rest)
    (ends : lexeme.endsLine = true) {front : List Char} (split : lexeme.text = front ++ ['\n'])
    (no_newline : '\n' ∉ front) (behind : Remade text (before ++ [lexeme]) rest true) :
    Remade text before (lexeme :: rest) false := by
  intro row row' more all first kept relaid
  obtain rfl : row' = row := kept
  have joint' : lexemes text = (before ++ [lexeme]) ++ rest := by
    rw [joint, List.append_assoc, List.singleton_append]
  have closed : AllClosed (before ++ [lexeme]) := by
    refine allClosed_append.2 ⟨(lexemes_eq_iff.1 joint).1.allClosed (List.cons_ne_nil _ _), ?_⟩
    intro other mem
    rw [List.mem_singleton.1 mem]
    exact Lexeme.isOpen_of_selfEnding (Lexeme.selfEnding_of_endsLine ends)
  obtain ⟨row₁, more₁, first₁⟩ := exists_rows (written rest)
  rw [written_cons, split, List.append_assoc, List.singleton_append, rows_append_newline,
    rows_of_no_newline no_newline, first₁, List.singleton_append] at first
  obtain ⟨rfl, rfl⟩ := List.cons.inj first
  have place : (written before).length + front.length + 1 = (written (before ++ [lexeme])).length := by
    rw [length_written_concat, split, List.length_append, List.length_singleton, Nat.add_assoc]
  rw [place, linesFrom] at relaid
  obtain ⟨row₁', all, here, relaid_below, rfl⟩ := List.forall₂_cons_left_iff.1 relaid
  have kept : RowKept true row₁ row₁' := here.at_joint joint' closed first₁
  obtain ⟨parts, respaced, same⟩ := behind first₁ kept relaid_below
  refine ⟨lexeme :: parts, .cons (by rwa [ends]), ?_⟩
  rw [written_cons, same, split, unrows, List.append_assoc, List.singleton_append]

/-- A string or block comment, whose lines are kept. -/
lemma Remade.region {kind : RegionKind} {body : List Char} {closed : Bool}
    (joint : lexemes text = before ++ .region kind body closed :: rest)
    (no_line : kind ≠ .lineComment)
    (behind : Remade text (before ++ [.region kind body closed]) rest false) :
    Remade text before (.region kind body closed :: rest) false := by
  have ends : (Lexeme.region kind body closed).endsLine = false := by
    cases kind with
    | lineComment => exact absurd rfl no_line
    | _ => rfl
  obtain ⟨above, last, body_rows, split⟩ := exists_last_row body
  have no_newline : ∀ row ∈ above ++ [last], '\n' ∉ row := by
    rw [← body_rows]
    exact fun row => no_newline_of_mem_rows
  cases above with
  | nil =>
    obtain rfl : body = last := split
    have no_newline_body : '\n' ∉ (Lexeme.region kind body closed).text :=
      no_newline body List.mem_cons_self
    exact behind.plain no_newline_body ends
  | cons row₀ above =>
    intro row row' more all first kept relaid
    obtain rfl : row' = row := kept
    obtain ⟨row₁, more₁, first₁⟩ := exists_rows (written rest)
    have rows_eq : rows (body ++ written rest) = row₀ :: (above ++ [last ++ row₁] ++ more₁) := by
      have no_newline_last := no_newline last (List.mem_append_right _ List.mem_cons_self)
      rw [split, List.append_assoc, rows_flatMap_append fun row mem =>
        no_newline row (List.mem_append_left [last] mem), rows_append no_newline_last first₁]
      simp
    rw [written_cons, Lexeme.text, rows_eq] at first
    obtain ⟨rfl, rfl⟩ := List.cons.inj first
    obtain ⟨all', rfl, relaid'⟩ :=
      exists_kept_rows relaid (not_inCode_of_region joint no_line split first₁)
    have place : (written before).length + row₀.length + 1
          + ((above ++ [last ++ row₁]).flatMap (· ++ ['\n'])).length
        = (written (before ++ [.region kind body closed])).length + row₁.length + 1 := by
      rw [length_written_concat, Lexeme.text, split]
      simp only [List.flatMap_append, List.flatMap_cons, List.flatMap_nil, List.length_append,
        List.length_cons, List.length_nil]
      omega
    rw [place] at relaid'
    obtain ⟨parts, respaced, same⟩ := behind first₁ rfl relaid'
    refine ⟨.region kind body closed :: parts, .cons (by rwa [ends]), ?_⟩
    rw [written_cons, same, Lexeme.text, split, List.append_assoc, ← unrows_cons_append,
      ← unrows_append (List.cons_ne_nil _ _)]
    simp

/-- At the head of a line that begins with no blank, spaces are added. -/
lemma Remade.at_line (no_blank : ∀ c ∈ (written rest).head?, isBlank c = false)
    (inside : Remade text before rest false) : Remade text before rest true := by
  intro row row' more all first kept relaid
  obtain ⟨count, rfl⟩ := kept
  have same_row : row.dropWhile isBlank = row := by
    cases head : written rest with
    | nil =>
      rw [head] at first
      obtain ⟨rfl, _⟩ := List.cons.inj first
      rfl
    | cons c text =>
      rw [head] at first no_blank
      exact (dropWhile_first_row first (no_blank c rfl)).2
  obtain ⟨parts, respaced, same⟩ := inside first rfl relaid
  refine ⟨_, respaced.at_line.add_spaces count, ?_⟩
  have spaces : written (List.replicate count (.space ' ')) = List.replicate count ' ' := by
    rw [← List.map_replicate, written_spaces]
  rw [written_append, spaces, same, same_row, unrows_cons_append]

/-- At the head of a line, a blank is dropped. -/
lemma Remade.blank {c : Char} (blank : isBlank c = true)
    (behind : Remade text (before ++ [.space c]) rest true) :
    Remade text before (.space c :: rest) true := by
  intro row row' more all first kept relaid
  obtain ⟨row₁, more₁, first₁⟩ := exists_rows (written rest)
  rw [written_cons, Lexeme.text, List.singleton_append,
    rows_cons (no_newline_of_blank blank) first₁] at first
  obtain ⟨rfl, rfl⟩ := List.cons.inj first
  have kept₁ : RowKept true row₁ row' := by
    obtain ⟨count, rfl⟩ := kept
    exact ⟨count, by rw [List.dropWhile_cons_of_pos blank]⟩
  have place : (written before).length + (c :: row₁).length + 1
      = (written (before ++ [.space c])).length + row₁.length + 1 := by
    rw [length_written_concat, Lexeme.text, List.length_cons, List.length_singleton]
    omega
  rw [place] at relaid
  obtain ⟨parts, respaced, same⟩ := behind first₁ kept₁ relaid
  exact ⟨parts, .drop blank respaced, same⟩

/-- So it is from every joint on. -/
lemma remade (joint : lexemes text = before ++ rest) (fresh : Bool) :
    Remade text before rest fresh := by
  induction rest generalizing before fresh with
  | nil =>
    cases fresh with
    | false => exact remade_nil text before
    | true => exact (remade_nil text before).at_line nofun
  | cons lexeme rest ih =>
    have joint' : lexemes text = (before ++ [lexeme]) ++ rest := by
      rw [joint, List.append_assoc, List.singleton_append]
    have reads := (lexemes_eq_iff.1 joint).1.reads
    -- Inside of a line, where a lexeme has line feeds decides how the rows go on behind it.
    have inside : Remade text before (lexeme :: rest) false := by
      rcases reads.newlines with ⟨no_newline, ends⟩ | ⟨ends, front, split, no_newline⟩ |
        ⟨kind, body, closed, rfl, no_line⟩
      · exact (ih joint' false).plain no_newline ends
      · exact (ih joint' true).ending joint ends split no_newline
      · exact (ih joint' false).region joint no_line
    cases fresh with
    | false => exact inside
    | true =>
      -- At the head of a line, blanks are dropped until another character comes.
      obtain ⟨c, text, split⟩ := List.exists_cons_of_ne_nil reads.text_ne_nil
      cases blank : isBlank c with
      | true =>
        obtain rfl := reads.isBlank_of_head (by rw [split]; rfl) blank
        exact (ih joint' true).blank blank
      | false =>
        refine inside.at_line ?_
        intro d mem
        rw [written_cons, split] at mem
        obtain rfl : c = d := Option.some.inj mem
        exact blank

end

/-- A text with the same contents has the same lexemes, but for the blanks at the head of lines. -/
lemma SameContents.exists_respaced {text result : List Char} (same : SameContents text result) :
    ∃ parts, Respaced true (lexemes text) parts ∧ written parts = result := by
  have joint : lexemes text = [] ++ lexemes text := rfl
  have whole : written (lexemes text) = text := lexemes_text text
  obtain ⟨row, more, first⟩ := exists_rows text
  have relaid := same.relaid
  rw [Script.ofText, first, linesFrom] at relaid
  obtain ⟨row', all, here, relaid_below, split⟩ := List.forall₂_cons_left_iff.1 relaid
  rw [← whole] at first
  have kept : RowKept true row row' := Relaid.at_joint joint allClosed_nil first here
  obtain ⟨parts, respaced, made⟩ := remade joint true first kept relaid_below
  exact ⟨parts, respaced, by rw [made, ← split, unrows_rows]⟩

/-- Indentation keeps the tokens. -/
lemma tokens_reindent (text : List Char) (offset : Nat) :
    tokens ((Script.ofText text).reindent offset) = tokens text := by
  obtain ⟨parts, respaced, made⟩ := (sameContents_reindent text offset).exists_respaced
  have same := tokens_eq_of_respaced respaced
  rw [made, lostReturn] at same
  split at same
  · rwa [tokens_append_return] at same
  · rwa [List.append_nil] at same

/-- Indenting a script anew changes nothing but offsets in what is found in it. -/
theorem reindent_keeps_views (text : List Char) (offset : Nat) :
    (Script.ofText ((Script.ofText text).reindent offset)).SameViews (Script.ofText text) :=
  sameViews_of_tokens_eq (tokens_reindent text offset)

end KixScript

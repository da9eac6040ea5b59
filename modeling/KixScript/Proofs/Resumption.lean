import KixScript.Proofs.Preservation

/-!
# Reading on

Where a line begins, the reader is between two lexemes, or inside of a string or block comment that
is not closed yet. What was read before stays as it is, whatever follows (`Resumes`). So a line is
read alike under all texts that leave the same thing pending, and no line changes how the lines above
it are read.
-/

namespace KixScript

/-- No comment or string is a slash. -/
lemma Lexeme.Reads.region_ne_slash {kind : RegionKind} {body rest : List Char} {closed : Bool}
    (reads : (region kind body closed).Reads rest) : body ≠ ['/'] := by
  cases kind with
  | string =>
    obtain ⟨quote, inner, is_quote, rfl, _⟩ := reads
    intro slash
    rw [(List.cons.inj slash).1] at is_quote
    cases is_quote
  | lineComment =>
    obtain ⟨inner, rfl, _⟩ := reads
    exact fun slash => absurd (List.cons.inj slash).1 (by decide)
  | blockComment =>
    obtain ⟨inner, rfl, _⟩ := reads
    exact fun slash => absurd (List.cons.inj slash).2 (List.cons_ne_nil _ _)

/-- What stands before a text is read alike before another one that looks alike. -/
lemma Stream.replace {before behind behind' : List Lexeme} (stream : Stream (before ++ behind))
    (stream' : Stream behind') (alike : SameFront (written behind) (written behind')) :
    Stream (before ++ behind') := by
  induction before with
  | nil => exact stream'
  | cons lexeme rest ih =>
    rw [List.cons_append] at stream ⊢
    cases stream with
    | cons reads stream =>
      refine .cons ?_ (ih stream)
      rw [written_append] at reads ⊢
      exact reads.of_sameFront (alike.append_left (written rest))

/-- Behind a comment or string that is not closed, reading goes on as if the text began with it. -/
lemma lexemes_append_open {above : List Char} {before : List Lexeme} {kind : RegionKind}
    {body : List Char} (joint : lexemes above = before ++ [.region kind body false])
    (rest : List Char) : lexemes (above ++ rest) = before ++ lexemes (body ++ rest) := by
  obtain ⟨stream, whole⟩ := lexemes_eq_iff.1 joint
  have reads := stream.reads
  have body_written : written [.region kind body false] = body := List.append_nil body
  have rest_written : written (lexemes (body ++ rest)) = body ++ rest := lexemes_text _
  rw [lexemes_eq_iff]
  refine ⟨?_, ?_⟩
  · apply stream.replace (lexemes_stream _)
    rw [body_written, rest_written]
    exact SameFront.append_right reads.text_ne_nil reads.region_ne_slash rest
  · rw [written_append, rest_written, ← List.append_assoc, ← whole, written_append, body_written]

/-- A mark that is missing is found behind all that was searched for it. -/
lemma exists_longer_enclosed (kind : RegionKind) (delimiter : List Char) {mark inner : List Char}
    (some_mark : mark ≠ []) (uncut : cutAfter? mark inner = none) (rest : List Char) :
    ∃ more closed, (Lexeme.enclosed kind delimiter mark (inner ++ rest)).1
        = .region kind (delimiter ++ (inner ++ more)) closed ∧ (closed = true → more ≠ []) := by
  unfold Lexeme.enclosed
  split
  · rename_i body behind cut
    have closed := closedBy_of_cutAfter? some_mark cut
    rcases List.append_eq_append_iff.1 (append_of_cutAfter? cut) with
      ⟨between, rfl, _⟩ | ⟨more, rfl, _⟩
    · rw [closed.cut_append between] at uncut
      cases uncut
    · refine ⟨more, true, rfl, ?_⟩
      rintro _ rfl
      rw [List.append_nil, ClosedBy, uncut] at closed
      cases closed
  · exact ⟨rest, false, rfl, fun closed => absurd closed Bool.false_ne_true⟩

/-- The first lexeme of a text is read first. -/
lemma exists_lexemes_of_first {c : Char} {rest : List Char} {lexeme : Lexeme}
    (first : (Lexeme.first c rest).1 = lexeme) : ∃ behind, lexemes (c :: rest) = lexeme :: behind :=
  ⟨_, by rw [lexemes_cons, first]⟩

/-- A comment or string that is not closed becomes longer by what follows it. -/
lemma exists_longer_region {kind : RegionKind} {body : List Char}
    (reads : (Lexeme.region kind body false).Reads []) (rest : List Char) :
    ∃ more closed behind, lexemes (body ++ rest) = .region kind (body ++ more) closed :: behind ∧
      (closed = true → more ≠ []) := by
  cases kind with
  | string =>
    obtain ⟨quote, inner, is_quote, rfl, uncut, _⟩ := reads
    obtain ⟨more, closed, enclosed, longer⟩ :=
      exists_longer_enclosed .string [quote] (List.cons_ne_nil quote []) uncut rest
    have first : Lexeme.first quote (inner ++ rest)
        = Lexeme.enclosed .string [quote] [quote] (inner ++ rest) := if_pos is_quote
    obtain ⟨behind, split⟩ := exists_lexemes_of_first (first ▸ enclosed)
    exact ⟨more, closed, behind, split, longer⟩
  | lineComment =>
    obtain ⟨inner, rfl, uncut, _⟩ := reads
    obtain ⟨more, closed, enclosed, longer⟩ :=
      exists_longer_enclosed .lineComment [';'] (List.cons_ne_nil '\n' []) uncut rest
    have first : Lexeme.first ';' (inner ++ rest)
        = Lexeme.enclosed .lineComment [';'] ['\n'] (inner ++ rest) := rfl
    obtain ⟨behind, split⟩ := exists_lexemes_of_first (first ▸ enclosed)
    exact ⟨more, closed, behind, split, longer⟩
  | blockComment =>
    obtain ⟨inner, rfl, uncut, _⟩ := reads
    obtain ⟨more, closed, enclosed, longer⟩ :=
      exists_longer_enclosed .blockComment ['/', '*'] (List.cons_ne_nil '*' ['/']) uncut rest
    have first : Lexeme.first '/' ('*' :: (inner ++ rest))
        = Lexeme.enclosed .blockComment ['/', '*'] ['*', '/'] (inner ++ rest) := rfl
    obtain ⟨behind, split⟩ := exists_lexemes_of_first (first ▸ enclosed)
    exact ⟨more, closed, behind, split, longer⟩

/-- A text that ends with a line feed ends with a lexeme that ends a line, or inside of a string or
block comment. -/
lemma endsLine_or_open {text : List Char} (whole : WholeLines text) {before : List Lexeme}
    {last : Lexeme} (split : lexemes text = before ++ [last]) :
    last.endsLine = true ∨
      ∃ kind body, last = .region kind body false ∧ kind ≠ .lineComment := by
  obtain ⟨stream, same⟩ := lexemes_eq_iff.1 split
  have reads := stream.reads
  rcases List.eq_nil_or_concat last.text with nothing | ⟨front, c, concat⟩
  · exact absurd nothing reads.text_ne_nil
  rw [List.concat_eq_append] at concat
  obtain rfl : c = '\n' := by
    apply whole
    rw [← same, written_append, written_cons, written_nil, List.append_nil, concat,
      ← List.append_assoc, List.getLast?_concat]
    exact rfl
  rcases reads.newlines with ⟨no_newline, _⟩ | ⟨ends, _⟩ | ⟨kind, body, closed, rfl, no_line⟩
  · exact absurd (concat ▸ List.mem_append_right front List.mem_cons_self) no_newline
  · exact .inl ends
  · cases closed with
    | false => exact .inr ⟨kind, body, rfl, no_line⟩
    | true =>
      -- A closed string or block comment ends with another character.
      obtain ⟨front', d, concat', _, no_newline⟩ := reads.exists_concat no_line
      exact absurd (List.cons.inj (List.append_inj' (concat'.symm.trans concat) rfl).2).1 no_newline

/-- Whatever follows `above`, it is read as `before`, and reading goes on with `pending`: with
nothing, or with a string or block comment that is not closed. -/
structure Resumes (above : List Char) (before : List Lexeme) (pending : List Char) : Prop where
  reads_on : ∀ rest, lexemes (above ++ rest) = before ++ lexemes (pending ++ rest)
  state : pending = [] ∨
    ∃ kind, kind ≠ .lineComment ∧ (Lexeme.region kind pending false).Reads []

/-- Whole lines end with a lexeme that has an end of its own, or inside of a string or block comment. -/
lemma settled_or_open {text : List Char} (whole : WholeLines text) :
    Settled (lexemes text) ∨
      ∃ before kind body, lexemes text = before ++ [.region kind body false] ∧ kind ≠ .lineComment := by
  rcases List.eq_nil_or_concat (lexemes text) with nothing | ⟨before, last, split⟩
  · rw [nothing]
    exact .inl settled_nil
  rw [List.concat_eq_append] at split
  rcases endsLine_or_open whole split with ends | ⟨kind, body, rfl, no_line⟩
  · rw [split, settled_concat]
    exact .inl (Lexeme.selfEnding_of_endsLine ends)
  · exact .inr ⟨before, kind, body, split, no_line⟩

/-- Behind settled lexemes reading begins anew. -/
lemma resumes_of_settled {above : List Char} (settled : Settled (lexemes above)) :
    Resumes above (lexemes above) [] :=
  ⟨fun rest => lexemes_append settled rest, .inl rfl⟩

/-- Behind an open string or block comment reading goes on with it. -/
lemma resumes_of_open {above : List Char} {before : List Lexeme} {kind : RegionKind}
    {body : List Char} (split : lexemes above = before ++ [.region kind body false])
    (no_line : kind ≠ .lineComment) : Resumes above before body := by
  refine ⟨fun rest => lexemes_append_open split rest, .inr ⟨kind, no_line, ?_⟩⟩
  exact (lexemes_eq_iff.1 split).1.reads

/-- Behind whole lines reading can be resumed. -/
lemma exists_resumes {above : List Char} (whole : WholeLines above) :
    ∃ before pending, Resumes above before pending := by
  rcases settled_or_open whole with settled | ⟨before, kind, body, split, no_line⟩
  · exact ⟨lexemes above, [], resumes_of_settled settled⟩
  · exact ⟨before, body, resumes_of_open split no_line⟩

namespace Resumes
variable {above pending : List Char} {before : List Lexeme}

/-- Reading resumed twice is resumed behind both texts. -/
lemma append (resumes : Resumes above before pending) {rest pending' : List Char}
    {behind : List Lexeme} (resumes' : Resumes (pending ++ rest) behind pending') :
    Resumes (above ++ rest) (before ++ behind) pending' := by
  refine ⟨fun more => ?_, resumes'.state⟩
  rw [List.append_assoc, resumes.reads_on, ← List.append_assoc, resumes'.reads_on,
    List.append_assoc]

/-- The lexemes and what is pending are the text above. -/
lemma written_append (resumes : Resumes above before pending) :
    written before ++ pending = above := by
  have same := (lexemes_eq_iff.1 (resumes.reads_on [])).2
  rw [KixScript.written_append, List.append_nil, List.append_nil] at same
  rw [← same, written, written, lexemes_text]

/-- What is read on is a stream. -/
lemma stream (resumes : Resumes above before pending) (rest : List Char) :
    Stream (before ++ lexemes (pending ++ rest)) :=
  (lexemes_eq_iff.1 (resumes.reads_on rest)).1

/-- What was read before is closed, since something could follow. -/
lemma allClosed (resumes : Resumes above before pending) : AllClosed before := by
  apply (resumes.stream ['\n']).allClosed
  intro nothing
  have empty := (lexemes_eq_iff.1 nothing).2
  exact absurd empty.symm (by simp)

end Resumes

/-- Blanks are read as spaces. -/
lemma lexemes_blanks {blanks : List Char} (blank : ∀ c ∈ blanks, isBlank c = true) :
    lexemes blanks = blanks.map .space := by
  rw [lexemes_eq_iff]
  refine ⟨?_, written_spaces blanks⟩
  induction blanks with
  | nil => exact .nil
  | cons c more ih =>
    refine .cons ?_ (ih fun d mem => blank d (List.mem_cons_of_mem _ mem))
    rw [Lexeme.Reads, blank c List.mem_cons_self, Bool.true_or]

/-- Spaces are settled. -/
lemma settled_spaces (blanks : List Char) : Settled (blanks.map .space) := by
  intro lexeme mem
  obtain ⟨c, _, rfl⟩ := List.mem_map.1 (List.mem_of_getLast? mem)
  rfl

/-- Behind blanks reading begins anew. -/
lemma resumes_blanks {blanks : List Char} (blank : ∀ c ∈ blanks, isBlank c = true) :
    Resumes blanks (blanks.map .space) [] := by
  refine ⟨fun rest => ?_, .inl rfl⟩
  have lexemes := lexemes_blanks blank
  rw [lexemes_append (by rw [lexemes]; exact settled_spaces blanks), lexemes]
  rfl

/-- The blanks behind a pending string or block comment belong to it. -/
lemma Resumes.not_inCode {above pending : List Char} {before : List Lexeme}
    (resumes : Resumes above before pending) (inside : pending ≠ []) (rest : List Char) :
    ((Script.ofText (above ++ rest)).contextAt
      (above.length + (rest.takeWhile isBlank).length : Nat)).inCode = false := by
  obtain ⟨kind, no_line, reads⟩ := resumes.state.resolve_left inside
  obtain ⟨more, closed, behind, first, longer⟩ := exists_longer_region reads rest
  have joint := resumes.reads_on rest
  have stream := (lexemes_eq_iff.1 first).1
  have parts : pending ++ more ++ written behind = pending ++ rest := (lexemes_eq_iff.1 first).2
  rw [List.append_assoc] at parts
  have parts : more ++ written behind = rest := List.append_cancel_left parts
  rw [first] at joint
  have some_pending : 0 < pending.length := List.length_pos_iff.2 inside
  have place : above.length + (rest.takeWhile isBlank).length
      = (written before).length + (pending.length + (rest.takeWhile isBlank).length) := by
    rw [← resumes.written_append, List.length_append, Nat.add_assoc]
  have bound : pending.length + (rest.takeWhile isBlank).length < (pending ++ more).length ∨
      closed = false ∧ pending.length + (rest.takeWhile isBlank).length = (pending ++ more).length := by
    rw [List.length_append]
    cases closed with
    | true =>
      -- The closing mark is no blank, so the blanks end before it.
      have closes : (Lexeme.region kind (pending ++ more) true).Reads (written behind) :=
        @Stream.reads [] behind _ stream
      obtain ⟨front, c, concat, no_blank, _⟩ := closes.exists_concat no_line
      rcases List.eq_nil_or_concat more with nothing | ⟨front', c', rfl⟩
      · exact absurd nothing (longer rfl)
      rw [List.concat_eq_append] at concat parts ⊢
      rw [← List.append_assoc] at concat
      obtain rfl := (List.cons.inj (List.append_inj' concat rfl).2).1
      have shorter := @length_takeWhile_lt front' (written behind) c' no_blank
      rw [parts] at shorter
      exact .inl (by omega)
    | false =>
      obtain rfl : behind = [] := @Stream.nil_of_isOpen [] behind _ stream rfl
      rw [written_nil, List.append_nil] at parts
      have blanks := (List.takeWhile_sublist isBlank (l := rest)).length_le
      rw [parts]
      rcases Nat.lt_or_eq_of_le blanks with shorter | same
      · exact .inl (by omega)
      · exact .inr ⟨rfl, by omega⟩
  rw [place, contextAt_inside joint (by omega) bound]
  rfl

end KixScript

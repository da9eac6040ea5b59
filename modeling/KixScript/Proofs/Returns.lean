import KixScript.Proofs.Canonical

/-!
# Carriage returns before line feeds

A carriage return before every line feed of a text is a space of its own in code, and becomes a part of
the comments and strings with line feeds (`lexemes_withReturns`). So the same is known above every line
(`survey_withReturns`), the lines have the same text, and they are placed alike. What is written is
the same text with the carriage returns put in (`reindent_withReturns`).
-/

namespace KixScript

/-- A text with a carriage return before every line feed. -/
def withReturns (text : List Char) : List Char :=
  text.flatMap fun c => if c = '\n' then ['\r', '\n'] else [c]

/-- A line feed gets a carriage return before it. -/
lemma withReturns_newline (rest : List Char) :
    withReturns ('\n' :: rest) = '\r' :: '\n' :: withReturns rest := rfl

/-- Any other character stays. -/
lemma withReturns_cons {c : Char} (inside : c ≠ '\n') (rest : List Char) :
    withReturns (c :: rest) = c :: withReturns rest := by
  rw [withReturns, List.flatMap_cons, if_neg inside]
  rfl

/-- Carriage returns are put into both parts of a text. -/
lemma withReturns_append (front back : List Char) :
    withReturns (front ++ back) = withReturns front ++ withReturns back :=
  List.flatMap_append

/-- A text without line feeds stays. -/
lemma withReturns_of_no_newline {text : List Char} (no_newline : '\n' ∉ text) :
    withReturns text = text := by
  induction text with
  | nil => rfl
  | cons c rest ih =>
    rw [List.mem_cons, not_or] at no_newline
    rw [withReturns_cons (Ne.symm no_newline.1), ih no_newline.2]

/-- The first character stays, unless it is a line feed. -/
lemma head?_withReturns {c : Char} (no_return : c ≠ '\r') (no_newline : c ≠ '\n') (text : List Char) :
    (withReturns text).head? = some c ↔ text.head? = some c := by
  cases text with
  | nil => exact Iff.rfl
  | cons d rest =>
    by_cases newline : d = '\n'
    · rw [newline, withReturns_newline]
      exact iff_of_false (fun same => no_return (Option.some.inj same).symm)
        fun same => no_newline (Option.some.inj same).symm
    · rw [withReturns_cons newline]
      exact Iff.rfl

/-- The last character stays. -/
lemma getLast?_withReturns (text : List Char) : (withReturns text).getLast? = text.getLast? := by
  rcases List.eq_nil_or_concat text with rfl | ⟨front, c, rfl⟩
  · rfl
  · rw [List.concat_eq_append, withReturns_append, List.getLast?_concat]
    by_cases newline : c = '\n'
    · rw [newline]
      exact List.getLast?_append_of_ne_nil _ (List.cons_ne_nil _ _)
    · rw [withReturns_cons newline]
      exact List.getLast?_concat

/-- There are as many line feeds as before. -/
lemma count_withReturns (text : List Char) : (withReturns text).count '\n' = text.count '\n' := by
  induction text with
  | nil => rfl
  | cons c rest ih =>
    by_cases newline : c = '\n'
    · rw [newline, withReturns_newline, List.count_cons_of_ne (by decide), List.count_cons_self,
        List.count_cons_self, ih]
    · rw [withReturns_cons newline, List.count_cons_of_ne newline, List.count_cons_of_ne newline, ih]

/-! ## How it is read -/

/-- A block comment opens with carriage returns or without. -/
lemma opensBlockComment_withReturns (c : Char) (rest : List Char) :
    opensBlockComment c (withReturns rest) = opensBlockComment c rest := by
  rw [opensBlockComment, opensBlockComment]
  refine congrArg _ (Bool.eq_iff_iff.2 ?_)
  rw [beq_iff_eq, beq_iff_eq, head?_withReturns (by decide) (by decide)]

/-- A run of punctuation is the same with carriage returns or without. -/
lemma punctuationRun_withReturns (text : List Char) :
    punctuationRun (withReturns text)
      = ((punctuationRun text).1, withReturns (punctuationRun text).2) := by
  induction text with
  | nil => rfl
  | cons c rest ih =>
    by_cases newline : c = '\n'
    · rw [newline]
      rfl
    · rw [withReturns_cons newline, punctuationRun, punctuationRun, opensBlockComment_withReturns, ih]
      split
      · rw [withReturns_cons newline]
      · rfl

/-- A mark without line ends leads with carriage returns or without. -/
lemma prefix_withReturns_iff {mark : List Char} (no_return : '\r' ∉ mark) (no_newline : '\n' ∉ mark)
    (text : List Char) : mark <+: withReturns text ↔ mark <+: text := by
  induction mark generalizing text with
  | nil => exact iff_of_true List.nil_prefix List.nil_prefix
  | cons m mark ih =>
    rw [List.mem_cons, not_or] at no_return no_newline
    cases text with
    | nil => exact Iff.rfl
    | cons c rest =>
      by_cases newline : c = '\n'
      · rw [newline, withReturns_newline, List.cons_prefix_cons, List.cons_prefix_cons]
        exact iff_of_false (fun same => no_return.1 same.1.symm) fun same => no_newline.1 same.1.symm
      · rw [withReturns_cons newline, List.cons_prefix_cons, List.cons_prefix_cons,
          ih no_return.2 no_newline.2]

/-- Behind a mark without line ends, carriage returns can be put in before or afterwards. -/
lemma drop_withReturns {mark text : List Char} (no_newline : '\n' ∉ mark) (leads : mark <+: text) :
    (withReturns text).drop mark.length = withReturns (text.drop mark.length) := by
  obtain ⟨rest, rfl⟩ := leads
  rw [withReturns_append, withReturns_of_no_newline no_newline, List.drop_left, List.drop_left]

/-- A mark stands at the same places, if it does not begin with a carriage return and holds no line
end behind its first character. -/
lemma cutAfter?_withReturns {m : Char} {mark : List Char} (first : m ≠ '\r') (no_return : '\r' ∉ mark)
    (no_newline : '\n' ∉ mark) (text : List Char) :
    cutAfter? (m :: mark) (withReturns text)
      = (cutAfter? (m :: mark) text).map (Prod.map withReturns withReturns) := by
  induction text with
  | nil => rfl
  | cons c rest ih =>
    have here : (m :: mark).isPrefixOf (c :: withReturns rest)
        = (m :: mark).isPrefixOf (c :: rest) := by
      rw [Bool.eq_iff_iff, List.isPrefixOf_iff_prefix, List.isPrefixOf_iff_prefix,
        List.cons_prefix_cons, List.cons_prefix_cons, prefix_withReturns_iff no_return no_newline]
    by_cases newline : c = '\n'
    · subst newline
      have absent : ¬ (m :: mark).isPrefixOf ('\r' :: '\n' :: withReturns rest) = true := by
        rw [List.isPrefixOf_iff_prefix, List.cons_prefix_cons]
        exact fun same => first same.1
      rw [withReturns_newline, cutAfter?, if_neg absent, cutAfter?, here, cutAfter?]
      split
      · rename_i found
        rw [List.isPrefixOf_iff_prefix, List.cons_prefix_cons] at found
        obtain ⟨rfl, leads⟩ := found
        have same : withReturns ('\n' :: mark) = '\r' :: '\n' :: mark := by
          rw [withReturns_newline, withReturns_of_no_newline no_newline]
        rw [Option.map_some, Option.map_some, Prod.map_apply, same, List.length_cons,
          List.drop_succ_cons, List.drop_succ_cons, drop_withReturns no_newline leads]
      · rw [ih, Option.map_map, Option.map_map, Option.map_map]
        rfl
    · rw [withReturns_cons newline, cutAfter?, here, cutAfter?]
      split
      · rename_i found
        rw [List.isPrefixOf_iff_prefix, List.cons_prefix_cons] at found
        obtain ⟨rfl, leads⟩ := found
        rw [Option.map_some, Prod.map_apply, withReturns_cons newline,
          withReturns_of_no_newline no_newline, List.length_cons, List.drop_succ_cons,
          List.drop_succ_cons, drop_withReturns no_newline leads]
      · rw [ih, Option.map_map, Option.map_map]
        refine congrArg (Option.map · _) (funext fun parts => ?_)
        exact congrArg (·, _) (withReturns_cons newline _).symm

namespace Lexeme

/-- What a lexeme becomes if a carriage return is put before every line feed. -/
def withReturns : Lexeme → List Lexeme
  | space c => if c = '\n' then [space '\r', space '\n'] else [space c]
  | region kind body closed => [region kind (KixScript.withReturns body) closed]
  | lexeme => [lexeme]

/-- A text is enclosed with carriage returns or without. -/
lemma Encloses.withReturns {m : Char} {mark body rest : List Char} {closed : Bool} (first : m ≠ '\r')
    (no_return : '\r' ∉ mark) (no_newline : '\n' ∉ mark)
    (encloses : Encloses (m :: mark) body rest closed) :
    Encloses (m :: mark) (KixScript.withReturns body) (KixScript.withReturns rest) closed := by
  have cut := cutAfter?_withReturns first no_return no_newline body
  cases closed with
  | true =>
    rw [show cutAfter? (m :: mark) body = some (body, []) from encloses] at cut
    exact cut
  | false =>
    obtain ⟨uncut, rfl⟩ := encloses
    rw [uncut] at cut
    exact ⟨cut, rfl⟩

/-- No word has a line feed. -/
lemma Reads.no_newline_of_word {token rest : List Char} (reads : (word token).Reads rest) :
    '\n' ∉ token :=
  fun mem => Bool.false_ne_true (reads.2.1 '\n' mem)

/-- No run of punctuation has a line feed. -/
lemma Reads.no_newline_of_punctuation {run rest : List Char} (reads : (punctuation run).Reads rest) :
    '\n' ∉ run :=
  fun mem => Bool.false_ne_true (not_endsPunctuation_of_run reads.2 '\n' mem).symm

/-- The lexemes made of one are written as its text with carriage returns. -/
lemma Reads.written_withReturns {lexeme : Lexeme} {rest : List Char} (reads : lexeme.Reads rest) :
    written lexeme.withReturns = KixScript.withReturns lexeme.text := by
  cases lexeme with
  | space c =>
    by_cases newline : c = '\n'
    · rw [newline]
      rfl
    · rw [withReturns, if_neg newline, text, withReturns_cons newline]
      rfl
  | word token =>
    rw [text, withReturns_of_no_newline reads.no_newline_of_word]
    exact List.append_nil token
  | punctuation run =>
    rw [text, withReturns_of_no_newline reads.no_newline_of_punctuation]
    exact List.append_nil run
  | opening => rfl
  | closing => rfl
  | region kind body closed => exact List.append_nil _

/-- A lexeme is read just so with the carriage returns put in, before what follows it with them. -/
lemma Reads.stream_withReturns {lexeme : Lexeme} {rest : List Char} {behind : List Lexeme}
    (reads : lexeme.Reads rest) (stream : Stream behind)
    (same : written behind = KixScript.withReturns rest) : Stream (lexeme.withReturns ++ behind) := by
  match lexeme, reads with
  | space c, reads =>
    by_cases newline : c = '\n'
    · rw [newline]
      exact .cons rfl (.cons rfl stream)
    · rw [withReturns, if_neg newline]
      exact .cons reads stream
  | word token, ⟨some_text, word_chars, stop⟩ =>
    refine @Stream.cons _ behind ⟨some_text, word_chars, ?_⟩ stream
    rw [same]
    cases rest with
    | nil => rintro c ⟨⟩
    | cons d more =>
      by_cases newline : d = '\n'
      · rw [newline, withReturns_newline]
        rintro c ⟨⟩
        rfl
      · rw [withReturns_cons newline]
        exact stop
  | punctuation run, reads =>
    refine @Stream.cons _ behind ⟨reads.1, ?_⟩ stream
    have run_eq := punctuationRun_withReturns (run ++ rest)
    rwa [withReturns_append, withReturns_of_no_newline reads.no_newline_of_punctuation, reads.2,
      ← same] at run_eq
  | opening, _ => exact .cons trivial stream
  | closing, _ => exact .cons trivial stream
  | region .string _ closed, ⟨quote, body, is_quote, rfl, encloses⟩ =>
    have no_end : quote ≠ '\r' ∧ quote ≠ '\n' := by
      refine ⟨?_, ?_⟩
      · rintro rfl
        cases is_quote
      · rintro rfl
        cases is_quote
    refine @Stream.cons _ behind
      ⟨quote, KixScript.withReturns body, is_quote, withReturns_cons no_end.2 body, ?_⟩ stream
    rw [same]
    exact encloses.withReturns no_end.1 List.not_mem_nil List.not_mem_nil
  | region .lineComment _ closed, ⟨body, rfl, encloses⟩ =>
    refine @Stream.cons _ behind ⟨KixScript.withReturns body, rfl, ?_⟩ stream
    rw [same]
    exact encloses.withReturns (by decide) List.not_mem_nil List.not_mem_nil
  | region .blockComment _ closed, ⟨body, rfl, encloses⟩ =>
    refine @Stream.cons _ behind ⟨KixScript.withReturns body, rfl, ?_⟩ stream
    rw [same]
    exact encloses.withReturns (by decide) (by decide) (by decide)

end Lexeme

/-- Lexemes with carriage returns are what the text with carriage returns is read as. -/
lemma Stream.withReturns {parts : List Lexeme} (stream : Stream parts) :
    Stream (parts.flatMap Lexeme.withReturns) ∧
      written (parts.flatMap Lexeme.withReturns) = KixScript.withReturns (written parts) := by
  induction stream with
  | nil => exact ⟨.nil, rfl⟩
  | cons reads _ ih =>
    rw [List.flatMap_cons, written_append, written_cons, withReturns_append, ih.2,
      reads.written_withReturns]
    exact ⟨reads.stream_withReturns ih.1 ih.2, rfl⟩

/-- The lexemes of a text with the carriage returns put in. -/
lemma lexemes_withReturns (text : List Char) :
    lexemes (withReturns text) = (lexemes text).flatMap Lexeme.withReturns := by
  obtain ⟨stream, same⟩ := (lexemes_stream text).withReturns
  rw [lexemes_eq_iff]
  exact ⟨stream, by rw [same, written, lexemes_text]⟩

/-! ## What is known above a line -/

/-- The survey is the same with carriage returns or without. -/
lemma Survey.foldl_withReturns (known : Survey) (lexeme : Lexeme) :
    lexeme.withReturns.foldl Survey.advance known = known.advance lexeme := by
  cases lexeme with
  | space c =>
    by_cases newline : c = '\n'
    · rw [newline]
      rfl
    · rw [Lexeme.withReturns, if_neg newline]
      rfl
  | region kind body closed =>
    have contains : (withReturns body).contains '\n' = body.contains '\n' := by
      rw [Bool.eq_iff_iff, List.contains_iff_mem, List.contains_iff_mem, ← List.count_pos_iff,
        ← List.count_pos_iff, count_withReturns]
    show known.advance (.region kind (withReturns body) closed) = _
    simp only [Survey.advance, Lexeme.text, count_withReturns, contains, getLast?_withReturns]
    rfl
  | _ => rfl

/-- The survey of all lexemes is the same with carriage returns or without. -/
lemma survey_withReturns (parts : List Lexeme) :
    survey (parts.flatMap Lexeme.withReturns) = survey parts := by
  induction parts using List.reverseRecOn with
  | nil => rfl
  | append_singleton before lexeme ih =>
    rw [List.flatMap_append, List.flatMap_singleton, survey_append, ih, Survey.foldl_withReturns,
      survey_concat]

/-- Settled lexemes are settled with carriage returns. -/
lemma Settled.withReturns {parts : List Lexeme} (settled : Settled parts) :
    Settled (parts.flatMap Lexeme.withReturns) := by
  rcases List.eq_nil_or_concat parts with rfl | ⟨before, last, rfl⟩
  · exact settled_nil
  rw [List.concat_eq_append] at settled ⊢
  have own_end := settled_concat.1 settled
  rw [List.flatMap_append, List.flatMap_singleton]
  cases last with
  | space c =>
    by_cases newline : c = '\n'
    · have split : before.flatMap Lexeme.withReturns ++ [.space '\r', .space '\n']
          = (before.flatMap Lexeme.withReturns ++ [.space '\r']) ++ [.space '\n'] := by
        rw [List.append_assoc]
        rfl
      rw [Lexeme.withReturns, if_pos newline, split]
      exact settled_concat.2 rfl
    · rw [Lexeme.withReturns, if_neg newline]
      exact settled_concat.2 rfl
  | word token => cases own_end
  | punctuation run => cases own_end
  | opening => exact settled_concat.2 rfl
  | closing => exact settled_concat.2 rfl
  | region kind body closed => exact settled_concat.2 own_end

/-- Below whole lines the same is known with the carriage returns put in, and what is pending is
pending with them. -/
lemma exists_resumes_withReturns {above : List Char} (whole : WholeLines above) :
    ∃ before before' pending, Resumes above before pending ∧
      Resumes (withReturns above) before' (withReturns pending) ∧ survey before = survey before' := by
  rcases settled_or_open whole with settled | ⟨before, kind, body, split, no_line⟩
  · refine ⟨_, _, [], resumes_of_settled settled, resumes_of_settled ?_, ?_⟩
    · rw [lexemes_withReturns]
      exact settled.withReturns
    · rw [lexemes_withReturns, survey_withReturns]
  · refine ⟨before, before.flatMap Lexeme.withReturns, body, resumes_of_open split no_line,
      resumes_of_open ?_ no_line, (survey_withReturns before).symm⟩
    rw [lexemes_withReturns, split, List.flatMap_append]
    rfl

/-! ## Its lines -/

/-- Rows with a carriage return at the end of each but the last. -/
def returnRows : List (List Char) → List (List Char)
  | [] => []
  | [row] => [row]
  | row :: next :: more => (row ++ ['\r']) :: returnRows (next :: more)

/-- There are as many rows as before. -/
lemma length_returnRows (all : List (List Char)) : (returnRows all).length = all.length := by
  fun_induction returnRows all with
  | case1 => rfl
  | case2 row => rfl
  | case3 row next more ih => exact congrArg Nat.succ ih

/-- Some row stays some row. -/
lemma returnRows_ne_nil {all : List (List Char)} (some_row : all ≠ []) : returnRows all ≠ [] := by
  rwa [← List.length_pos_iff, length_returnRows, List.length_pos_iff]

/-- A row stays or gets a carriage return at its end. -/
lemma getElem?_returnRows {all : List (List Char)} {number : Nat} {row' : List Char}
    (found : (returnRows all)[number]? = some row') :
    ∃ row, all[number]? = some row ∧ (row' = row ∨ row' = row ++ ['\r']) := by
  fun_induction returnRows all generalizing number with
  | case1 => cases found
  | case2 row => exact ⟨row', found, .inl rfl⟩
  | case3 row next more ih =>
    cases number with
    | zero => exact ⟨row, rfl, .inr (Option.some.inj found).symm⟩
    | succ number => exact ih found

/-- The rows above a row all get carriage returns. -/
lemma take_returnRows {all : List (List Char)} {number : Nat} (bound : number < all.length) :
    (returnRows all).take number = (all.take number).map (· ++ ['\r']) := by
  fun_induction returnRows all generalizing number with
  | case1 => cases bound
  | case2 row =>
    obtain rfl : number = 0 := Nat.lt_one_iff.1 bound
    rfl
  | case3 row next more ih =>
    cases number with
    | zero => rfl
    | succ number =>
      rw [List.take_succ_cons, ih (Nat.lt_of_succ_lt_succ bound), List.take_succ_cons, List.map_cons]

/-- Rows with carriage returns are written as the text with carriage returns. -/
lemma withReturns_unrows {all : List (List Char)} (no_newline : ∀ row ∈ all, '\n' ∉ row) :
    withReturns (unrows all) = unrows (returnRows all) := by
  fun_induction returnRows all with
  | case1 => rfl
  | case2 row => exact withReturns_of_no_newline (no_newline row List.mem_cons_self)
  | case3 row next more ih =>
    obtain ⟨first, others⟩ := List.forall_mem_cons.1 no_newline
    rw [unrows, withReturns_append, withReturns_of_no_newline first, withReturns_newline, ih others,
      unrows_cons (returnRows_ne_nil (List.cons_ne_nil _ _)), List.append_assoc]
    rfl

/-- The rows of a text with carriage returns are those of the text, with carriage returns. -/
lemma rows_withReturns (text : List Char) : rows (withReturns text) = returnRows (rows text) := by
  have no_newline : ∀ row ∈ returnRows (rows text), '\n' ∉ row := by
    intro row' mem
    obtain ⟨number, found⟩ := List.mem_iff_getElem?.1 mem
    obtain ⟨row, here, same⟩ := getElem?_returnRows found
    have inside := no_newline_of_mem_rows (List.mem_of_getElem? here)
    rcases same with rfl | rfl
    · exact inside
    · intro newline
      rcases List.mem_append.1 newline with newline | newline
      · exact inside newline
      · cases List.mem_singleton.1 newline
  have whole := withReturns_unrows fun _ => @no_newline_of_mem_rows text _
  rw [unrows_rows] at whole
  rw [whole, rows_unrows (returnRows_ne_nil (rows_ne_nil text)) no_newline]

/-- Whole lines get carriage returns before their line feeds. -/
lemma withReturns_flatMap {above : List (List Char)} (no_newline : ∀ row ∈ above, '\n' ∉ row) :
    withReturns (above.flatMap (· ++ ['\n'])) = (above.map (· ++ ['\r'])).flatMap (· ++ ['\n']) := by
  induction above with
  | nil => rfl
  | cons row more ih =>
    obtain ⟨first, others⟩ := List.forall_mem_cons.1 no_newline
    rw [List.flatMap_cons, withReturns_append, withReturns_append, withReturns_of_no_newline first,
      ih others, List.map_cons, List.flatMap_cons, List.append_assoc row ['\r']]
    rfl

/-- The text above a line gets carriage returns. -/
lemma textAbove_withReturns {text : List Char} {number : Nat} (bound : number < (rows text).length) :
    textAbove (withReturns text) number = withReturns (textAbove text number) := by
  rw [textAbove, textAbove, rows_withReturns, take_returnRows bound,
    withReturns_flatMap fun _ mem => no_newline_of_mem_rows (List.mem_of_mem_take mem)]

/-- There is no carriage return to leave out. -/
lemma withoutReturn_of_not_mem {row : List Char} (no_return : '\r' ∉ row) : withoutReturn row = row :=
  if_neg fun returned => no_return (List.mem_of_getLast? returned)

/-- The carriage return at the end is left out. -/
lemma withoutReturn_concat (row : List Char) : withoutReturn (row ++ ['\r']) = row := by
  rw [withoutReturn, if_pos List.getLast?_concat, List.dropLast_concat]

/-- No row has a carriage return if the text has none. -/
lemma not_mem_of_mem_rows {text row : List Char} (no_return : '\r' ∉ text) (mem : row ∈ rows text) :
    '\r' ∉ row := by
  have count := count_unrows (by decide : '\r' ≠ '\n') (rows text)
  rw [unrows_rows, List.count_eq_zero.2 no_return] at count
  exact fun inside => List.count_eq_zero.1 count.symm (List.mem_flatten.2 ⟨row, mem, inside⟩)

/-- The rows of placed lines end with the carriage returns that were put in. -/
lemma placedRows_returnRows {all : List (List Char)} (no_return : ∀ row ∈ all, '\r' ∉ row)
    (start start' : Nat) {placed : List PlacedLine} (length : placed.length = all.length) :
    placedRows (linesFrom start' (returnRows all)) placed
      = returnRows (placedRows (linesFrom start all) placed) := by
  fun_induction returnRows all generalizing start start' placed with
  | case1 => rfl
  | case2 row =>
    obtain ⟨first, rfl⟩ := List.length_eq_one_iff.1 length
    rfl
  | case3 row next more ih =>
    obtain ⟨first, rest, rfl⟩ := List.exists_cons_of_length_eq_add_one length
    obtain ⟨no_return, others⟩ := List.forall_mem_cons.1 no_return
    have length := Nat.succ.inj length
    have ending : (Line.mk start row).ending = [] := by
      rw [Line.ending, Line.text, withoutReturn_of_not_mem no_return, List.drop_length]
    have ending' : (Line.mk start' (row ++ ['\r'])).ending = ['\r'] := by
      rw [Line.ending, Line.text, withoutReturn_concat, List.drop_left]
    have below := ih others (start + row.length + 1) (start' + (row ++ ['\r']).length + 1) length
    obtain ⟨second, rest, rfl⟩ := List.exists_cons_of_length_eq_add_one length
    show (first.text ++ (Line.mk start' (row ++ ['\r'])).ending)
        :: placedRows (linesFrom _ (returnRows (next :: more))) (second :: rest)
      = (first.text ++ (Line.mk start row).ending ++ ['\r'])
        :: returnRows (placedRows (linesFrom _ (next :: more)) (second :: rest))
    rw [ending, ending', below, List.append_nil]

section
variable {text : List Char} (no_return : '\r' ∉ text)
include no_return

/-- Lines are placed alike with carriage returns or without. -/
lemma placedAlike_withReturns :
    List.Forall₂ (PlacedAlike (Script.ofText text) (Script.ofText (withReturns text)))
      (Script.ofText text).lines (Script.ofText (withReturns text)).lines := by
  have length : (Script.ofText text).lines.length
      = (Script.ofText (withReturns text)).lines.length := by
    rw [Script.ofText, Script.ofText, length_linesFrom, length_linesFrom, rows_withReturns,
      length_returnRows]
  refine List.forall₂_iff_get.2 ⟨length, fun number bound bound' => ?_⟩
  have found := List.getElem?_eq_getElem bound
  have found' := List.getElem?_eq_getElem bound'
  obtain ⟨rest, stands⟩ := exists_standsIn found
  obtain ⟨rest', stands'⟩ := exists_standsIn found'
  have text_eq : (Script.ofText text).lines[number].text
      = (Script.ofText (withReturns text)).lines[number].text := by
    have here := row_of_lines found'
    rw [rows_withReturns] at here
    obtain ⟨row, at_number, same⟩ := getElem?_returnRows here
    rw [row_of_lines found] at at_number
    obtain rfl := Option.some.inj at_number
    have no_return := not_mem_of_mem_rows no_return (List.mem_of_getElem? (row_of_lines found))
    rw [Line.text, withoutReturn_of_not_mem no_return]
    rcases same with same | same
    · rw [Line.text, same, withoutReturn_of_not_mem no_return]
    · rw [Line.text, same, withoutReturn_concat]
  obtain ⟨before, before', pending, resumes, resumes', known⟩ := exists_resumes_withReturns stands.whole
  rw [Script.ofText, length_linesFrom] at bound
  rw [← textAbove_withReturns bound] at resumes'
  have pends : pending = [] ↔ withReturns pending = [] := by
    rw [← List.getLast?_eq_none_iff, ← getLast?_withReturns, List.getLast?_eq_none_iff]
  have body := congrArg (List.dropWhile isBlank) text_eq
  exact ⟨.inl text_eq, planLine_congr stands stands' resumes resumes' pends known body⟩

/-- The layout is the same with carriage returns or without. -/
lemma layout_withReturns (offset : Nat) :
    (Script.ofText (withReturns text)).layout offset = (Script.ofText text).layout offset :=
  (placeLines_congr (placedAlike_withReturns no_return) offset []).symm

end

/-- The rows of a text that is indented anew, if no carriage return is lost at its end. -/
lemma reindent_eq_unrows {text : List Char} (no_return : text.getLast? ≠ some '\r') (offset : Nat) :
    (Script.ofText text).reindent offset
      = unrows (placedRows (Script.ofText text).lines ((Script.ofText text).layout offset)) := by
  rw [← writeLines_append_lastEnding (length_layout _ _), lastEnding_lines, lostReturn,
    if_neg no_return, List.append_nil]
  rfl

/-- Indenting a text anew and putting a carriage return before every line feed can be done in either
order. -/
theorem reindent_withReturns {text : List Char} (no_return : '\r' ∉ text) (offset : Nat) :
    (Script.ofText (withReturns text)).reindent offset
        = withReturns ((Script.ofText text).reindent offset) ∧
      (Script.ofText (withReturns text)).tryReindent offset
        = ((Script.ofText text).tryReindent offset).map withReturns := by
  have layout := layout_withReturns no_return offset
  have result : (Script.ofText (withReturns text)).reindent offset
      = withReturns ((Script.ofText text).reindent offset) := by
    have no_newline : ∀ row ∈ placedRows (Script.ofText text).lines
        ((Script.ofText text).layout offset), '\n' ∉ row :=
      no_newline_of_forall₂_relaid (relaid_placeLines _ _ _ _) fun _ => no_newline_of_mem_lines
    have length : ((Script.ofText text).layout offset).length = (rows text).length :=
      (length_layout _ offset).trans (length_linesFrom 0 (rows text))
    have last : text.getLast? ≠ some '\r' := fun returned => no_return (List.mem_of_getLast? returned)
    have lines : (Script.ofText (withReturns text)).lines = linesFrom 0 (returnRows (rows text)) := by
      rw [← rows_withReturns]
      rfl
    rw [reindent_eq_unrows last, reindent_eq_unrows (by rwa [getLast?_withReturns]), layout,
      withReturns_unrows no_newline, lines,
      placedRows_returnRows (fun _ => not_mem_of_mem_rows no_return) 0 0 length]
    rfl
  refine ⟨result, ?_⟩
  rw [Script.tryReindent, Script.tryReindent, layout, result]
  cases Script.layoutFault? ((Script.ofText text).layout offset) with
  | some fault => rfl
  | none => rfl

/-- A text with a block, a group, a comment before a line end, and a string and a block comment over
several lines. -/
def feedText : List Char :=
  "Do\n  If (a ; b\n\n c)\n\t'x\n  y'\n EndIf /* d\n\te */\n \n  Loop".toList

/-- Carriage returns can be put in before indentation or behind it. -/
theorem reindent_feedText : '\r' ∉ feedText ∧
    (Script.ofText (withReturns feedText)).reindent 4
        = withReturns ((Script.ofText feedText).reindent 4) ∧
      (Script.ofText (withReturns feedText)).tryReindent 4
        = ((Script.ofText feedText).tryReindent 4).map withReturns :=
  have no_return : '\r' ∉ feedText := by decide +kernel
  ⟨no_return, reindent_withReturns no_return 4⟩

end KixScript

import KixScript.Proofs.Nesting
import KixScript.Proofs.Resolution
import KixScript.Proofs.Resumption
import KixScript.Proofs.Spelling
import Mathlib.Data.List.Induction

/-!
# Programs line by line

A program is a nest of lines with one block keyword each, at the head of its line. Every line is
complete in itself (`Row.Fits`), so the lines above a line leave nothing open: no comment, string or
group, and no word or `.` that could reach into it (`complete_source`). The keywords in sight of a
line are then those of the lines above it, which are found line by line (`met_concat`, `met_nest`).
-/

namespace KixScript

/-- A line of a program: some blanks, and what stands behind them. -/
structure Row where
  margin : List Char
  content : List Char
  deriving DecidableEq, Repr

/-- What stands at the head of a line behind its blanks: the keyword that the line has, in any letter
case and as a word of its own, or just anything. -/
def BeginsWith (content : List Char) : Option Keyword → Prop
  | none => ∀ c ∈ content.head?, isBlank c = false
  | some keyword => ∃ word rest, content = word ++ rest ∧ Keyword.ofText? word = some keyword ∧
      ∀ c ∈ rest.head?, isWordChar c = false

/-- A line that is complete in itself and has one block keyword, at its head, or none. Read with a
line feed behind it, its comments, strings and groups are closed. -/
@[mk_iff]
structure Row.Fits (row : Row) (keyword : Option Keyword) : Prop where
  margin_blank : ∀ c ∈ row.margin, isBlank c = true
  no_newline : '\n' ∉ row.content
  no_return : '\r' ∉ row.content
  closed : ∀ region ∈ (Scan.ofText (row.content ++ ['\n'])).regions, region.closed = true
  matched : (Scan.ofText (row.content ++ ['\n'])).Matched
  keywords : (Script.ofText (row.content ++ ['\n'])).blockKeywords.map Occurrence.keyword
    = keyword.toList
  head : BeginsWith row.content keyword

namespace Row

/-- The characters of a line, without its line feed. -/
def text (row : Row) : List Char :=
  row.margin ++ row.content

/-- The line with a margin of so many spaces. A line of blanks is emptied. -/
def atColumn (row : Row) (column : Nat) : Row :=
  { row with margin := if row.content = [] then [] else List.replicate column ' ' }

/-- A row fits at any column. -/
lemma Fits.atColumn {row : Row} {keyword : Option Keyword} (fits : row.Fits keyword) (column : Nat) :
    (row.atColumn column).Fits keyword := by
  refine { fits with margin_blank := ?_ }
  intro c mem
  rw [Row.atColumn] at mem
  dsimp only at mem
  split at mem
  · cases mem
  · rw [List.eq_of_mem_replicate mem]
    rfl

end Row

/-- A line of a program with its block keyword, if it has one. -/
def ProgramLine (keyword : Option Keyword) : Type :=
  { row : Row // row.Fits keyword }

/-- The line with a margin of so many spaces. -/
def ProgramLine.atColumn {keyword : Option Keyword} (line : ProgramLine keyword) (column : Nat) :
    ProgramLine keyword :=
  ⟨line.val.atColumn column, line.property.atColumn column⟩

/-- What stands in a block of a program up to its closer, or in the whole program. -/
abbrev Body (next : Option Branch) : Type :=
  Nest (ProgramLine none) (fun keyword => ProgramLine (some keyword)) next

/-- Well-nested lines. -/
abbrev Program : Type :=
  Body none

namespace Nest

/-- The lines from top to bottom. -/
def lines : {next : Option Branch} → Body next → List Row
  | _, done => []
  | _, leaf plain rest => plain.val :: rest.lines
  | _, block _ head inner close rest => head.val :: (inner.lines ++ close.val :: rest.lines)
  | _, branch _ mark rest => mark.val :: rest.lines

/-- The same lines with `offset` columns per level. The opener, the branches and the closer of a
block stand one level to the left of what the block holds. -/
def aligned (offset : Nat) : {next : Option Branch} → Nat → Body next → Body next
  | _, _, done => done
  | _, level, leaf plain rest => leaf (plain.atColumn (offset * level)) (rest.aligned offset level)
  | _, level, block kind head inner close rest =>
    block kind (head.atColumn (offset * level)) (inner.aligned offset (level + 1))
      (close.atColumn (offset * level)) (rest.aligned offset level)
  | _, level, branch b mark rest =>
    branch b (mark.atColumn (offset * (level - 1))) (rest.aligned offset level)

end Nest

/-- The text of some lines, each with a line feed behind it. -/
def source (rows : List Row) : List Char :=
  rows.flatMap fun row => row.text ++ ['\n']

@[simp] lemma source_nil : source [] = [] := rfl

/-- The source of rows below stands behind that of the rows above. -/
@[simp] lemma source_append (above below : List Row) :
    source (above ++ below) = source above ++ source below := by
  simp [source]

/-- One row more is written below with its line feed. -/
lemma source_concat (above : List Row) (row : Row) :
    source (above ++ [row]) = source above ++ (row.text ++ ['\n']) := by
  simp [source]

/-! ## Lines that begin with a keyword -/

/-- The word that a keyword is spelled with is as long as it can be. -/
lemma beginsWith_some_iff {content : List Char} {keyword : Keyword} :
    BeginsWith content (some keyword)
      ↔ Keyword.ofText? (content.takeWhile isWordChar) = some keyword := by
  constructor
  · rintro ⟨word, rest, rfl, spells, stop⟩
    have outside : rest.takeWhile isWordChar = [] := by
      cases rest with
      | nil => rfl
      | cons c more =>
        have no_word := stop c rfl
        simp [no_word]
    rw [List.takeWhile_append_of_pos (isWordChar_of_ofText? spells), outside, List.append_nil]
    exact spells
  · intro spells
    refine ⟨_, content.dropWhile isWordChar, List.takeWhile_append_dropWhile.symm, spells, ?_⟩
    intro c mem
    have stop := List.head?_dropWhile_not isWordChar content
    rw [Option.mem_def.1 mem] at stop
    exact stop

instance (content : List Char) : (keyword : Option Keyword) → Decidable (BeginsWith content keyword)
  | none => Option.decidableForallMem content.head?
  | some _ => decidable_of_iff' _ beginsWith_some_iff

instance (row : Row) (keyword : Option Keyword) : Decidable (row.Fits keyword) :=
  have : Decidable (∀ c ∈ row.margin, isBlank c = true) := List.decidableBAll _ _
  decidable_of_iff' _ (row.fits_iff keyword)

/-- What begins with a keyword begins with a character of words. -/
lemma BeginsWith.exists_cons {content : List Char} {keyword : Keyword}
    (begins : BeginsWith content (some keyword)) :
    ∃ c rest, content = c :: rest ∧ isWordChar c = true := by
  obtain ⟨word, rest, rfl, spells, _⟩ := begins
  cases word with
  | nil => cases spells
  | cons c more => exact ⟨c, more ++ rest, rfl, isWordChar_of_ofText? spells c List.mem_cons_self⟩

/-- The blanks of a line end where its contents begin. -/
lemma BeginsWith.no_blank {content : List Char} {keyword : Option Keyword}
    (begins : BeginsWith content keyword) : ∀ c ∈ content.head?, isBlank c = false := by
  cases keyword with
  | none => exact begins
  | some keyword =>
    obtain ⟨c, rest, rfl, word_char⟩ := begins.exists_cons
    intro d mem
    obtain rfl := Option.some.inj (Option.mem_def.1 mem)
    cases blank : isBlank c with
    | false => rfl
    | true =>
      have two : c = ' ' ∨ c = '\t' := by simpa [isBlank] using blank
      rcases two with rfl | rfl <;> cases word_char

/-- A line that begins with a keyword has its word as the first lexeme. -/
lemma BeginsWith.exists_word {content : List Char} {keyword : Keyword}
    (begins : BeginsWith content (some keyword)) :
    ∃ word rest, lexemes (content ++ ['\n']) = .word word :: rest ∧
      Keyword.ofText? word = some keyword := by
  obtain ⟨word, rest, rfl, spells, stop⟩ := begins
  have some_word : word ≠ [] := by
    rintro rfl
    cases spells
  have stop' : ∀ c ∈ (rest ++ ['\n']).head?, isWordChar c = false := by
    cases rest with
    | nil =>
      intro c mem
      obtain rfl : '\n' = c := by simpa using mem
      decide
    | cons d more => exact stop
  have reads : (Lexeme.word word).Reads (rest ++ ['\n']) :=
    ⟨some_word, isWordChar_of_ofText? spells, stop'⟩
  refine ⟨word, lexemes (rest ++ ['\n']), ?_, spells⟩
  obtain ⟨c, text, same, first⟩ := reads.first
  rw [List.append_assoc, show word ++ (rest ++ ['\n']) = c :: text from same, lexemes_cons, first]

/-! ## What a line leaves behind it -/

namespace Row
variable {row : Row} {keyword : Option Keyword}

/-- The last lexeme of a row ends its line. -/
lemma Fits.exists_last (fits : row.Fits keyword) :
    ∃ before last, lexemes (row.content ++ ['\n']) = before ++ [last] ∧ last.endsLine = true := by
  rcases List.eq_nil_or_concat (lexemes (row.content ++ ['\n'])) with nothing | ⟨before, last, split⟩
  · have empty := (lexemes_eq_iff.1 nothing).2
    exact absurd empty.symm (by simp)
  rw [List.concat_eq_append] at split
  refine ⟨before, last, split, ?_⟩
  have whole : WholeLines (row.content ++ ['\n']) := by
    intro c mem
    simpa using mem.symm
  rcases endsLine_or_open whole split with ends | ⟨kind, body, rfl, _⟩
  · exact ends
  · have all_closed := allClosed_of_regions fits.closed
    rw [split] at all_closed
    have closed := all_closed _ (List.mem_append_right before List.mem_cons_self)
    cases closed

/-- A row is read as its margin and its content. -/
lemma Fits.lexemes_text (fits : row.Fits keyword) :
    lexemes (row.text ++ ['\n'])
      = row.margin.map .space ++ lexemes (row.content ++ ['\n']) := by
  have blanks := lexemes_blanks fits.margin_blank
  rw [Row.text, List.append_assoc, lexemes_append (by rw [blanks]; exact settled_spaces _), blanks]

/-- A row is read the same whatever stands below. -/
lemma Fits.settled (fits : row.Fits keyword) : Settled (lexemes (row.text ++ ['\n'])) := by
  obtain ⟨before, last, split, ends⟩ := fits.exists_last
  rw [fits.lexemes_text, split, ← List.append_assoc, settled_concat]
  exact Lexeme.selfEnding_of_endsLine ends

end Row

namespace Cursor

/-- Cursors that are alike stay so behind lexemes. -/
lemma Alike.after {cursor cursor' : Cursor} (alike : cursor.Alike cursor')
    (lexemes : List Lexeme) : (cursor.after lexemes).Alike (cursor'.after lexemes) := by
  induction lexemes generalizing cursor cursor' with
  | nil => exact alike
  | cons lexeme rest ih => exact ih (alike.advance lexeme)

/-- Blanks leave an idle cursor idle. -/
lemma Alike.blanks {cursor : Cursor} (idle : cursor.Alike .start) {blanks : List Char}
    (blank : ∀ c ∈ blanks, isBlank c = true) :
    (cursor.after (blanks.map .space)).Alike .start := by
  induction blanks generalizing cursor with
  | nil => exact idle
  | cons c more ih =>
    have fresh : cursor.Fresh := ⟨idle.afterDot, idle.lead⟩
    apply ih
    · exact (fresh.blank (blank c List.mem_cons_self)).alike fresh_start idle.depth
    · exact fun d mem => blank d (List.mem_cons_of_mem _ mem)

end Cursor

/-- A line leaves nothing to know behind it. -/
lemma Row.Fits.idle {row : Row} {keyword : Option Keyword} (fits : row.Fits keyword)
    {cursor : Cursor} (idle : cursor.Alike .start) :
    (cursor.after (lexemes (row.text ++ ['\n']))).Alike .start := by
  have idle := idle.blanks fits.margin_blank
  have depth := (idle.after (lexemes (row.content ++ ['\n']))).depth
  rw [depth_of_matched fits.matched] at depth
  rw [fits.lexemes_text, Cursor.after_append]
  obtain ⟨before, last, split, ends⟩ := fits.exists_last
  -- Whatever ends the line leaves nothing but the depth, and all groups are closed.
  have fresh := Cursor.fresh_of_endsLine (lexemes_eq_iff.1 split).1.reads ends
    ((cursor.after (row.margin.map .space)).after before)
  rw [split, Cursor.after_append, Cursor.after_cons, Cursor.after_nil] at depth ⊢
  exact fresh.alike Cursor.fresh_start depth

/-! ## The keywords of the lines above -/

/-- The first lexeme comes to the surface first. -/
lemma surface_cons (cursor : Cursor) (lexeme : Lexeme) (rest : List Lexeme) :
    surface cursor (lexeme :: rest)
      = (Piece.onSurface? ⟨lexeme, cursor⟩).toList ++ surface (cursor.advance lexeme) rest := by
  rw [surface_eq, placed_cons, List.filterMap_cons, surface_eq]
  cases Piece.onSurface? ⟨lexeme, cursor⟩ <;> rfl

/-- Spaces bring nothing to the surface. -/
lemma surface_spaces (cursor : Cursor) (blanks : List Char) :
    surface cursor (blanks.map .space) = [] := by
  induction blanks generalizing cursor with
  | nil => rfl
  | cons c more ih =>
    rw [List.map_cons, surface_cons, ih]
    rfl

/-- Outside of groups, a word is on the surface if it is a keyword. -/
lemma Piece.onSurface?_word {cursor : Cursor} (outside : cursor.depth = 0) (word : List Char) :
    Piece.onSurface? ⟨.word word, cursor⟩
      = (cursor.keyword? word).map fun keyword =>
          ⟨keyword, cursor.offset, cursor.offset + word.length⟩ := by
  rw [onSurface?, word?, Option.bind_some]
  exact if_pos outside

/-- Which keywords are on the surface does not depend on the offset. -/
lemma Cursor.Alike.keywords {cursor cursor' : Cursor} (alike : cursor.Alike cursor')
    (lexemes : List Lexeme) :
    (surface cursor lexemes).map Occurrence.keyword
      = (surface cursor' lexemes).map Occurrence.keyword := by
  induction lexemes generalizing cursor cursor' with
  | nil => rfl
  | cons lexeme rest ih =>
    have here : (Piece.onSurface? ⟨lexeme, cursor⟩).map Occurrence.keyword
        = (Piece.onSurface? ⟨lexeme, cursor'⟩).map Occurrence.keyword := by
      cases lexeme with
      | word word =>
        have keyword : cursor.keyword? word = cursor'.keyword? word := by
          rw [Cursor.keyword?, Cursor.keyword?, alike.afterDot]
        by_cases outside : cursor.depth = 0
        · rw [Piece.onSurface?_word outside, Piece.onSurface?_word (alike.depth ▸ outside), keyword,
            Option.map_map, Option.map_map]
          rfl
        · have inside : ¬ cursor'.depth = 0 := alike.depth ▸ outside
          simp only [Piece.onSurface?, Piece.word?, Option.bind_some, if_neg outside, if_neg inside]
      | _ => rfl
    rw [surface_cons, surface_cons, List.map_append, List.map_append, ih (alike.advance lexeme),
      ← Option.toList_map, ← Option.toList_map, here]

/-- A line has its keyword on the surface, behind its margin. -/
lemma Row.Fits.exists_mark {row : Row} {keyword : Option Keyword} (fits : row.Fits keyword)
    {cursor : Cursor} (idle : cursor.Alike .start) :
    ∃ mark : Option Occurrence, surface cursor (lexemes (row.text ++ ['\n'])) = mark.toList ∧
      mark.map Occurrence.keyword = keyword ∧
      ∀ found ∈ mark, found.start = cursor.offset + row.margin.length := by
  have idle := idle.blanks fits.margin_blank
  have keywords := idle.keywords (lexemes (row.content ++ ['\n']))
  rw [← blockKeywords_ofText, fits.keywords] at keywords
  rw [fits.lexemes_text, surface_append, surface_spaces, List.nil_append]
  cases keyword with
  | none => exact ⟨none, List.map_eq_nil_iff.1 keywords, rfl, nofun⟩
  | some keyword =>
    obtain ⟨found, same, is_keyword⟩ := List.map_eq_singleton_iff.1 keywords
    refine ⟨some found, same, congrArg some is_keyword, ?_⟩
    rintro found' mem
    obtain rfl := Option.some.inj (Option.mem_def.1 mem)
    -- The line begins with its keyword, so this is the one on the surface.
    obtain ⟨word, rest, split, spells⟩ := fits.head.exists_word
    have here : (cursor.after (row.margin.map .space)).keyword? word = some keyword := by
      rw [Cursor.keyword?, idle.afterDot]
      exact spells
    rw [split, surface_cons, Piece.onSurface?_word idle.depth, here] at same
    rw [← (List.cons.inj same).1]
    dsimp only
    rw [Cursor.offset_after, written_spaces]

/-- The first word of a plain row is no keyword. -/
lemma Row.Fits.keyword?_eq_none {row : Row} (fits : row.Fits none) {cursor : Cursor}
    (idle : cursor.Alike .start) {word : List Char} {rest : List Lexeme}
    (first : lexemes (row.content ++ ['\n']) = .word word :: rest) : cursor.keyword? word = none := by
  have keywords := idle.keywords (lexemes (row.content ++ ['\n']))
  rw [← blockKeywords_ofText, fits.keywords] at keywords
  have nothing := List.map_eq_nil_iff.1 keywords
  rw [first, surface_cons, Piece.onSurface?_word idle.depth] at nothing
  have none_here := (List.append_eq_nil_iff.1 nothing).1
  rw [Option.toList_eq_nil_iff] at none_here
  exact Option.map_eq_none_iff.1 none_here

/-- Settled lexemes behind settled ones are settled. -/
lemma settled_append {before behind : List Lexeme} (settled : Settled before)
    (settled' : Settled behind) : Settled (before ++ behind) := by
  intro lexeme mem
  rw [List.getLast?_append] at mem
  cases last : behind.getLast? with
  | none =>
    rw [last] at mem
    exact settled lexeme mem
  | some other =>
    rw [last] at mem
    exact settled' lexeme (last.trans mem)

/-- Every line is one of a program. -/
def AllFit (rows : List Row) : Prop :=
  ∀ row ∈ rows, ∃ keyword, row.Fits keyword

/-- Rows all fit if those above and those below do. -/
lemma allFit_append {above below : List Row} :
    AllFit (above ++ below) ↔ AllFit above ∧ AllFit below :=
  List.forall_mem_append

/-- A row that fits does so on its own. -/
lemma Row.Fits.allFit {row : Row} {keyword : Option Keyword} (fits : row.Fits keyword) :
    AllFit [row] := by
  intro other mem
  rw [List.mem_singleton.1 mem]
  exact ⟨keyword, fits⟩

/-- Nothing reaches from a text into what follows it. -/
structure Complete (text : List Char) : Prop where
  settled : Settled (lexemes text)
  idle : (Cursor.start.after (lexemes text)).Alike .start

/-- Lines of a program leave nothing open. -/
lemma complete_source {above : List Row} (fits : AllFit above) : Complete (source above) := by
  induction above using List.reverseRecOn with
  | nil =>
    refine ⟨?_, ?_⟩
    · rw [source_nil, lexemes_nil]
      exact settled_nil
    · rw [source_nil, lexemes_nil]
      exact ⟨rfl, rfl, rfl⟩
  | append_singleton above row ih =>
    obtain ⟨fits, last⟩ := allFit_append.1 fits
    obtain ⟨keyword, row_fits⟩ := last row List.mem_cons_self
    obtain ⟨settled, idle⟩ := ih fits
    refine ⟨?_, ?_⟩
    · rw [source_concat, lexemes_append settled]
      exact settled_append settled row_fits.settled
    · rw [source_concat, lexemes_append settled, Cursor.after_append]
      exact row_fits.idle idle

/-- The keywords that are in sight behind some lines, nearest first. -/
def met (above : List Row) : List Occurrence :=
  (surface .start (lexemes (source above))).reverse

lemma met_nil : met [] = [] := by
  rw [met, source_nil, lexemes_nil]
  rfl

section
variable {above : List Row} {row : Row} (fits : AllFit above)
include fits

/-- A line adds its keyword to those in sight. -/
lemma met_concat {keyword : Option Keyword} (row_fits : row.Fits keyword) :
    ∃ mark : Option Occurrence, met (above ++ [row]) = mark.toList ++ met above ∧
      mark.map Occurrence.keyword = keyword ∧
      ∀ found ∈ mark, found.start = (source above).length + row.margin.length := by
  obtain ⟨settled, idle⟩ := complete_source fits
  obtain ⟨mark, seen, keyword, start⟩ := row_fits.exists_mark idle
  refine ⟨mark, ?_, keyword, ?_⟩
  · rw [met, source_concat, lexemes_append settled, surface_append, seen, List.reverse_append, met]
    cases mark <;> rfl
  · rwa [Cursor.start_after_offset, written, lexemes_text] at start

/-- A plain row brings no keyword. -/
lemma met_plain (row_fits : row.Fits none) : met (above ++ [row]) = met above := by
  obtain ⟨mark, seen, keyword, _⟩ := met_concat fits row_fits
  rw [seen, Option.map_eq_none_iff.1 keyword]
  rfl

/-- A row with a keyword brings it, at its margin. -/
lemma met_keyword {keyword : Keyword} (row_fits : row.Fits (some keyword)) :
    ∃ found, met (above ++ [row]) = found :: met above ∧ found.keyword = keyword ∧
      found.start = (source above).length + row.margin.length := by
  obtain ⟨mark, seen, same, start⟩ := met_concat fits row_fits
  obtain ⟨found, rfl, is_keyword⟩ := Option.map_eq_some_iff.1 same
  exact ⟨found, seen, is_keyword, start found rfl⟩

end

/-- The rows of a nest all fit. -/
lemma Nest.allFit {next : Option Branch} (nest : Body next) : AllFit nest.lines := by
  induction nest with
  | done => exact nofun
  | leaf plain rest ih => exact List.forall_mem_cons.2 ⟨⟨_, plain.property⟩, ih⟩
  | block kind head inner close rest ih_inner ih_rest =>
    refine List.forall_mem_cons.2 ⟨⟨_, head.property⟩, ?_⟩
    exact allFit_append.2 ⟨ih_inner, List.forall_mem_cons.2 ⟨⟨_, close.property⟩, ih_rest⟩⟩
  | branch b mark rest ih => exact List.forall_mem_cons.2 ⟨⟨_, mark.property⟩, ih⟩

/-- A nest adds its keywords to those in sight. -/
lemma met_nest {next : Option Branch} (nest : Body next) {above : List Row} (fits : AllFit above) :
    ∃ found : List Occurrence, found.map Occurrence.keyword = nest.keywords ∧
      met (above ++ nest.lines) = found.reverse ++ met above := by
  induction nest generalizing above with
  | done => exact ⟨[], rfl, by rw [Nest.lines, List.append_nil]; rfl⟩
  | leaf plain rest ih =>
    obtain ⟨found, spelled, seen⟩ := ih (allFit_append.2 ⟨fits, plain.property.allFit⟩)
    refine ⟨found, spelled, ?_⟩
    rw [Nest.lines, List.append_cons, seen, met_plain fits plain.property]
  | block kind head inner close rest ih_inner ih_rest =>
    have fits_head := allFit_append.2 ⟨fits, head.property.allFit⟩
    have fits_inner := allFit_append.2 ⟨fits_head, inner.allFit⟩
    have fits_close := allFit_append.2 ⟨fits_inner, close.property.allFit⟩
    obtain ⟨first, seen_head, opens, _⟩ := met_keyword fits head.property
    obtain ⟨inside, spelled_inside, seen_inside⟩ := ih_inner fits_head
    obtain ⟨last, seen_close, closes, _⟩ := met_keyword fits_inner close.property
    obtain ⟨behind, spelled_behind, seen_behind⟩ := ih_rest fits_close
    refine ⟨first :: (inside ++ last :: behind), ?_, ?_⟩
    · simp [Nest.keywords, opens, closes, spelled_inside, spelled_behind]
    · rw [Nest.lines, List.append_cons, ← List.append_assoc, List.append_cons, seen_behind,
        seen_close, seen_inside, seen_head]
      simp
  | branch b mark rest ih =>
    obtain ⟨first, seen_mark, divides, _⟩ := met_keyword fits mark.property
    obtain ⟨found, spelled, seen⟩ := ih (allFit_append.2 ⟨fits, mark.property.allFit⟩)
    refine ⟨first :: found, ?_, ?_⟩
    · rw [List.map_cons, divides, spelled, Nest.keywords]
    · rw [Nest.lines, List.append_cons, seen, seen_mark, List.reverse_cons, List.append_assoc]
      rfl

end KixScript

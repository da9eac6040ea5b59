import KixScript.Proofs.Atoms
import KixScript.Proofs.Cover
import KixScript.Proofs.Hidden
import Mathlib.Order.Bounds.Basic

/-!
# How a scan divides a text

Every piece of a text is a tile: a comment or string, a word, a run of punctuation, a parenthesis, or a
blank or line end by itself. The lists of a scan hold these tiles and no others
(`tile_of_piece`, `Tile.Of.exists_piece`), so every offset lies in one of them (`exists_unique_tile`). A
word cannot be longer in either direction (`stands_of_mem_words`), and a comment or string ends with the
first mark behind its opening delimiter (`delimited_of_mem_regions`). `scan_partitions` puts this
together.
-/

namespace KixScript

/-! ## Tiles -/

/-- What an offset of a text can belong to. -/
inductive TileKind where
  | region
  | word
  | punctuation
  | parenthesis
  | space
  deriving DecidableEq, Repr

/-- A stretch of a text with its kind, from `start` up to `stop` exclusive. -/
structure Tile where
  kind : TileKind
  start : Nat
  stop : Nat
  deriving DecidableEq, Repr

/-- The kind of tile that a character in code belongs to. -/
def TileKind.ofChar (c : Char) : TileKind :=
  if isBlank c || isLineEnd c then .space
  else if c = '(' ∨ c = ')' then .parenthesis
  else if isWordChar c then .word
  else .punctuation

/-- Whether an offset lies in no comment or string. -/
def Scan.InCode (scan : Scan) (offset : Nat) : Prop :=
  ∀ region ∈ scan.regions, offset ∉ Set.Ico region.start region.stop

/-- The tiles that a scan lists, and the blanks and line ends in the code. -/
inductive Tile.Of (text : List Char) (scan : Scan) : Tile → Prop where
  | region {region} :
    region ∈ scan.regions →
    Of text scan ⟨.region, region.start, region.stop⟩
  | word {word} :
    word ∈ scan.words →
    Of text scan ⟨.word, word.start, word.stop⟩
  | punctuation {span} :
    span ∈ scan.punctuation →
    Of text scan ⟨.punctuation, span.start, span.stop⟩
  | parenthesis {atom} :
    atom ∈ scan.atoms →
    atom.word? = none →
    Of text scan ⟨.parenthesis, atom.start, atom.stop⟩
  | space {offset c} :
    text[offset]? = some c →
    c ∈ [' ', '\t', '\r', '\n'] →
    scan.InCode offset →
    Of text scan ⟨.space, offset, offset + 1⟩

/-- The kind of tile that a lexeme is. -/
def Lexeme.tileKind : Lexeme → TileKind
  | .space _ => .space
  | .word _ => .word
  | .punctuation _ => .punctuation
  | .opening => .parenthesis
  | .closing => .parenthesis
  | .region _ _ _ => .region

/-- The tile that a piece is. -/
def Piece.tile (piece : Piece) : Tile :=
  ⟨piece.lexeme.tileKind, piece.start, piece.stop⟩

/-! ## What pieces are seen as -/

namespace Piece
variable {piece : Piece}

/-- Parentheses are the atoms that are no words. -/
lemma tileKind_eq_parenthesis :
    piece.lexeme.tileKind = .parenthesis ↔ ∃ atom, piece.atom? = some atom ∧ atom.word? = none := by
  obtain ⟨lexeme, cursor⟩ := piece
  cases lexeme <;> simp [Lexeme.tileKind, atom?, Piece.word?, Atom.word?]

/-- A run of punctuation stands where its piece does. -/
lemma punctuation?_eq_some {span : Span} (found : piece.punctuation? = some span) :
    piece.lexeme.tileKind = .punctuation ∧ span.start = piece.start ∧ span.stop = piece.stop := by
  obtain ⟨lexeme, cursor⟩ := piece
  cases lexeme with
  | punctuation run =>
    obtain rfl := Option.some.inj found
    exact ⟨rfl, rfl, rfl⟩
  | _ => cases found

end Piece

/-! ## Every offset in one tile -/

section
variable {text : List Char} {piece : Piece} {offset : Nat} {tile : Tile}

/-- A piece covers its start. -/
lemma covers_start (mem : piece ∈ (Script.ofText text).scan.pieces) :
    piece.start ∈ Set.Ico piece.start piece.stop :=
  ⟨Nat.le_refl _, (lexemes_stream text).start_lt_stop mem⟩

/-- An offset is in code if the piece over it is no comment or string. -/
lemma inCode_iff (mem : piece ∈ (Script.ofText text).scan.pieces)
    (covers : offset ∈ Set.Ico piece.start piece.stop) :
    (Script.ofText text).scan.InCode offset ↔ piece.lexeme.tileKind ≠ .region := by
  have outside : (Script.ofText text).scan.InCode offset ↔
      ¬ ∃ region ∈ (Script.ofText text).scan.regions, offset ∈ Set.Ico region.start region.stop := by
    simp [Scan.InCode]
  rw [outside, exists_region_at_iff mem covers]
  cases piece.lexeme <;> simp [Lexeme.tileKind]

/-- Characters of words are of the kind of words. -/
lemma TileKind.ofChar_word {c : Char} (word_char : isWordChar c = true) : ofChar c = .word := by
  have no_parenthesis : ¬ (c = '(' ∨ c = ')') := by
    rintro (rfl | rfl)
    · cases word_char
    · cases word_char
  rw [ofChar, not_space_of_isWordChar word_char, if_neg no_parenthesis, if_pos word_char]
  rfl

/-- The kind of a lexeme is seen in each of its characters, unless it is a comment or string. -/
lemma Lexeme.Reads.tileKind_eq {lexeme : Lexeme} {rest : List Char} (reads : lexeme.Reads rest)
    (code : lexeme.tileKind ≠ .region) {c : Char} (mem : c ∈ lexeme.text) :
    lexeme.tileKind = .ofChar c := by
  cases lexeme with
  | space d =>
    obtain rfl := List.mem_singleton.1 mem
    exact (if_pos reads).symm
  | word token =>
    exact (TileKind.ofChar_word (reads.2.1 c mem)).symm
  | punctuation run =>
    have goes_on := not_endsPunctuation_of_run reads.2 c mem
    simp only [endsPunctuation, Bool.or_eq_false_iff, beq_eq_false_iff_ne] at goes_on
    obtain ⟨⟨⟨⟨⟨⟨blank, line_end⟩, left⟩, right⟩, _⟩, _⟩, word⟩ := goes_on
    simp [Lexeme.tileKind, TileKind.ofChar, blank, line_end, left, right, word]
  | opening =>
    obtain rfl := List.mem_singleton.1 mem
    rfl
  | closing =>
    obtain rfl := List.mem_singleton.1 mem
    rfl
  | region kind body closed => exact absurd rfl code

/-- In code, the kind of a piece is that of each of its characters. -/
lemma tileKind_of_char (mem : piece ∈ (Script.ofText text).scan.pieces)
    (covers : offset ∈ Set.Ico piece.start piece.stop) {c : Char} (here : text[offset]? = some c)
    (code : (Script.ofText text).scan.InCode offset) : piece.lexeme.tileKind = .ofChar c := by
  obtain ⟨rest, reads, _⟩ := exists_reads_of_mem_pieces mem
  obtain ⟨d, d_mem, there⟩ := exists_char_at mem covers
  obtain rfl := Option.some.inj (here.symm.trans there)
  exact reads.tileKind_eq ((inCode_iff mem covers).1 code) d_mem

/-- A piece whose text is one character starts where that character stands. -/
lemma start_eq_of_covers (covers : offset ∈ Set.Ico piece.start piece.stop)
    (single : piece.lexeme.text.length = 1) : piece.start = offset := by
  have upper := covers.2
  rw [Piece.stop, Lexeme.length, single] at upper
  exact Nat.le_antisymm covers.1 (Nat.le_of_lt_succ upper)

/-- A piece that is a parenthesis is listed among the atoms. -/
lemma tile_of_parenthesis (mem : piece ∈ (Script.ofText text).scan.pieces) {loose : Atom}
    (found : piece.atom? = some loose) (no_word : loose.word? = none) :
    Tile.Of text (Script.ofText text).scan ⟨.parenthesis, piece.start, piece.stop⟩ := by
  obtain ⟨start, stop⟩ := Piece.span_of_atom? found
  obtain ⟨atom, atom_mem, rfl⟩ := exists_alone_iff.2 ⟨piece, mem, found⟩
  rw [← start, ← stop, Atom.start_alone, Atom.stop_alone]
  rw [Atom.word?_alone] at no_word
  exact .parenthesis atom_mem no_word

/-- Every piece is a tile. -/
lemma tile_of_piece (mem : piece ∈ (Script.ofText text).scan.pieces) :
    piece.tile.Of text (Script.ofText text).scan := by
  have covers := covers_start mem
  obtain ⟨rest, reads, _⟩ := exists_reads_of_mem_pieces mem
  obtain ⟨c, c_mem, here⟩ := exists_char_at mem covers
  have code := inCode_iff mem covers
  obtain ⟨lexeme, cursor⟩ := piece
  cases lexeme with
  | region kind body closed =>
    obtain ⟨region, found⟩ : ∃ region, Piece.region? ⟨.region kind body closed, cursor⟩ = some region :=
      ⟨_, rfl⟩
    obtain ⟨_, _, start, stop⟩ := Piece.region?_eq_some found
    rw [Piece.tile, ← start, ← stop]
    exact .region (List.mem_filterMap.2 ⟨_, mem, found⟩)
  | word token =>
    obtain ⟨word, found⟩ : ∃ word, Piece.word? ⟨.word token, cursor⟩ = some word := ⟨_, rfl⟩
    obtain ⟨_, start, stop, _⟩ := Piece.word?_eq_some found
    rw [Piece.tile, ← start, ← stop]
    exact .word (List.mem_filterMap.2 ⟨_, mem, found⟩)
  | punctuation run =>
    obtain ⟨span, found⟩ : ∃ span, Piece.punctuation? ⟨.punctuation run, cursor⟩ = some span := ⟨_, rfl⟩
    obtain ⟨_, start, stop⟩ := Piece.punctuation?_eq_some found
    rw [Piece.tile, ← start, ← stop]
    exact .punctuation (List.mem_filterMap.2 ⟨_, mem, found⟩)
  | opening => exact tile_of_parenthesis mem rfl rfl
  | closing => exact tile_of_parenthesis mem rfl rfl
  | space d =>
    obtain rfl := List.mem_singleton.1 c_mem
    exact .space here (isSpace_iff.1 reads) (code.2 TileKind.noConfusion)

/-- Every tile is a piece. -/
lemma Tile.Of.exists_piece (listed : tile.Of text (Script.ofText text).scan) :
    ∃ piece ∈ (Script.ofText text).scan.pieces, piece.tile = tile := by
  cases listed with
  | region mem =>
    obtain ⟨piece, mem, found⟩ := List.mem_filterMap.1 mem
    obtain ⟨body, same, start, stop⟩ := Piece.region?_eq_some found
    refine ⟨piece, mem, ?_⟩
    rw [Piece.tile, same, start, stop]
    rfl
  | word mem =>
    obtain ⟨piece, mem, found⟩ := List.mem_filterMap.1 mem
    obtain ⟨same, start, stop, _⟩ := Piece.word?_eq_some found
    refine ⟨piece, mem, ?_⟩
    rw [Piece.tile, same, start, stop]
    rfl
  | punctuation mem =>
    obtain ⟨piece, mem, found⟩ := List.mem_filterMap.1 mem
    obtain ⟨is_kind, start, stop⟩ := Piece.punctuation?_eq_some found
    refine ⟨piece, mem, ?_⟩
    rw [Piece.tile, is_kind, start, stop]
  | @parenthesis atom mem no_word =>
    obtain ⟨piece, mem, found⟩ := exists_alone_iff.1 ⟨atom, mem, rfl⟩
    obtain ⟨start, stop⟩ := Piece.span_of_atom? found
    have is_kind : piece.lexeme.tileKind = .parenthesis :=
      Piece.tileKind_eq_parenthesis.2 ⟨_, found, by rw [Atom.word?_alone, no_word]⟩
    refine ⟨piece, mem, ?_⟩
    rw [Piece.tile, is_kind, ← start, ← stop, Atom.start_alone, Atom.stop_alone]
  | @space offset c here is_space code =>
    obtain ⟨bound, _⟩ := List.getElem?_eq_some_iff.1 here
    obtain ⟨piece, mem, covers⟩ := exists_piece_at bound
    have is_kind : piece.lexeme.tileKind = .space := by
      rw [tileKind_of_char mem covers here code]
      exact if_pos (isSpace_iff.2 is_space)
    have single : piece.lexeme.length = 1 := by
      cases is_lexeme : piece.lexeme with
      | space d => rfl
      | _ =>
        rw [is_lexeme] at is_kind
        cases is_kind
    refine ⟨piece, mem, ?_⟩
    rw [Piece.tile, is_kind, Piece.stop, single, ← start_eq_of_covers covers single]
    rfl

/-- One tile covers each offset. -/
lemma exists_unique_tile (bound : offset < text.length) :
    ∃! tile : Tile, tile.Of text (Script.ofText text).scan ∧ offset ∈ Set.Ico tile.start tile.stop := by
  obtain ⟨piece, mem, covers⟩ := exists_piece_at bound
  refine ⟨piece.tile, ⟨tile_of_piece mem, covers⟩, ?_⟩
  rintro tile ⟨listed, covers'⟩
  obtain ⟨piece', mem', rfl⟩ := listed.exists_piece
  rw [piece_eq_of_covers mem mem' covers covers']

end

/-! ## Parentheses -/

/-- Parentheses open or close. -/
lemma Lexeme.parenthesis_cases {lexeme : Lexeme} (is_kind : lexeme.tileKind = .parenthesis) :
    lexeme = .opening ∨ lexeme = .closing := by
  cases lexeme with
  | opening => exact .inl rfl
  | closing => exact .inr rfl
  | _ => cases is_kind

/-- A parenthesis is known by its sign. -/
lemma Lexeme.eq_of_sign {lexeme lexeme' : Lexeme} {c : Char}
    (is_kind : lexeme.tileKind = .parenthesis) (sign : lexeme.text = [c])
    (is_kind' : lexeme'.tileKind = .ofChar c) (mem : c ∈ lexeme'.text) : lexeme' = lexeme := by
  rcases parenthesis_cases is_kind with rfl | rfl
  · obtain rfl := List.singleton_inj.1 sign
    rcases parenthesis_cases is_kind' with rfl | rfl
    · rfl
    · exact absurd (List.mem_singleton.1 mem) (by decide)
  · obtain rfl := List.singleton_inj.1 sign
    rcases parenthesis_cases is_kind' with rfl | rfl
    · exact absurd (List.mem_singleton.1 mem) (by decide)
    · rfl

/-- A parenthesis in the code is an atom. -/
lemma exists_parenthesis_iff {text : List Char} {offset : Nat} {loose : Atom} {lexeme : Lexeme}
    {c : Char} (is_kind : lexeme.tileKind = .parenthesis) (sign : lexeme.text = [c])
    (is_atom : ∀ piece : Piece, piece.atom? = some loose
      ↔ piece.lexeme = lexeme ∧ piece.start = offset) :
    (∃ atom ∈ (Script.ofText text).scan.atoms, atom.alone = loose)
      ↔ text[offset]? = some c ∧ (Script.ofText text).scan.InCode offset := by
  simp only [exists_alone_iff, is_atom]
  constructor
  · rintro ⟨piece, mem, same, rfl⟩
    have covers := covers_start mem
    obtain ⟨d, d_mem, here⟩ := exists_char_at mem covers
    rw [same, sign] at d_mem
    obtain rfl := List.mem_singleton.1 d_mem
    refine ⟨here, (inCode_iff mem covers).2 ?_⟩
    rw [same, is_kind]
    exact TileKind.noConfusion
  · rintro ⟨here, code⟩
    obtain ⟨bound, _⟩ := List.getElem?_eq_some_iff.1 here
    obtain ⟨piece, mem, covers⟩ := exists_piece_at bound
    obtain ⟨d, d_mem, there⟩ := exists_char_at mem covers
    obtain rfl := Option.some.inj (here.symm.trans there)
    have same := Lexeme.eq_of_sign is_kind sign (tileKind_of_char mem covers here code) d_mem
    refine ⟨piece, mem, same, start_eq_of_covers covers ?_⟩
    rw [same, sign, List.length_singleton]

/-! ## Order -/

/-- The stretch of a comment or string. -/
def Region.span (region : Region) : Span :=
  ⟨region.start, region.stop⟩

/-- The stretch of a word. -/
def Word.span (word : Word) : Span :=
  ⟨word.start, word.stop⟩

/-- The stretch of an atom. -/
def Atom.span (atom : Atom) : Span :=
  ⟨atom.start, atom.stop⟩

/-- Stretches that are not empty, stand in order and do not overlap. -/
def Ascending (spans : List Span) : Prop :=
  (∀ span ∈ spans, span.start < span.stop) ∧
    spans.Pairwise fun span span' => span.start < span'.start ∧ span.stop ≤ span'.start

/-- Spans that are not empty and lie apart ascend. -/
lemma Ascending.of_apart {spans : List Span} (nonempty : ∀ span ∈ spans, span.start < span.stop)
    (apart : spans.Pairwise fun span span' => span.stop ≤ span'.start) : Ascending spans := by
  refine ⟨nonempty, apart.imp_of_mem ?_⟩
  intro span span' mem _ order
  exact ⟨Nat.lt_of_lt_of_le (nonempty span mem) order, order⟩

/-- What is seen in the pieces stands in order. -/
lemma ascending_filterMap {α : Type} {view : Piece → Option α} {span : α → Span} (text : List Char)
    (same : ∀ piece x, view piece = some x →
      (span x).start = piece.start ∧ (span x).stop = piece.stop) :
    Ascending (((Script.ofText text).scan.pieces.filterMap view).map span) := by
  apply Ascending.of_apart
  · intro s mem
    obtain ⟨x, x_mem, rfl⟩ := List.mem_map.1 mem
    obtain ⟨piece, mem, found⟩ := List.mem_filterMap.1 x_mem
    obtain ⟨start, stop⟩ := same piece x found
    rw [start, stop]
    exact (lexemes_stream text).start_lt_stop mem
  · rw [List.pairwise_map]
    apply List.Pairwise.filterMap _ _ (pairwise_placed .start (lexemes text))
    intro piece piece' order x found x' found'
    rw [(same piece x found).2, (same piece' x' found').1]
    exact order

/-- Atoms ascend. -/
lemma ascending_atoms (text : List Char) :
    Ascending ((Script.ofText text).scan.atoms.map Atom.span) := by
  apply Ascending.of_apart
  · intro s mem
    obtain ⟨atom, atom_mem, rfl⟩ := List.mem_map.1 mem
    exact start_lt_stop_of_mem atom_mem
  · rw [List.pairwise_map]
    exact pairwise_atoms text

/-! ## Delimiters -/

/-- The opening delimiters of the comments or strings of a kind. -/
def RegionKind.openings : RegionKind → List (List Char)
  | lineComment => [[';']]
  | blockComment => [['/', '*']]
  | string => [['"'], ['\x27']]

section
variable {kind : RegionKind} {opening : List Char} (opens : opening ∈ kind.openings)
include opens

/-- Comments and strings open in four ways. -/
lemma openings_cases :
    kind = .lineComment ∧ opening = [';'] ∨ kind = .blockComment ∧ opening = ['/', '*'] ∨
      kind = .string ∧ opening = ['"'] ∨ kind = .string ∧ opening = ['\x27'] := by
  cases kind <;> simpa [RegionKind.openings] using opens

/-- Each kind opens with a mark of its width. -/
lemma length_of_opens : opening.length = kind.width := by
  rcases openings_cases opens with ⟨rfl, rfl⟩ | ⟨rfl, rfl⟩ | ⟨rfl, rfl⟩ | ⟨rfl, rfl⟩ <;> rfl

/-- The opening delimiter decides about the closing one. -/
lemma mark_append_of_opens (rest : List Char) : kind.mark (opening ++ rest) = kind.mark opening := by
  rcases openings_cases opens with ⟨rfl, rfl⟩ | ⟨rfl, rfl⟩ | ⟨rfl, rfl⟩ | ⟨rfl, rfl⟩ <;> rfl

/-- Each kind has some mark at its end. -/
lemma mark_ne_nil_of_opens : kind.mark opening ≠ [] := by
  rcases openings_cases opens with ⟨rfl, rfl⟩ | ⟨rfl, rfl⟩ | ⟨rfl, rfl⟩ | ⟨rfl, rfl⟩ <;>
    exact List.cons_ne_nil _ _

/-- No word holds a character of a closing delimiter. -/
lemma not_isWordChar_of_mem_mark {c : Char} (mem : c ∈ kind.mark opening) : isWordChar c = false := by
  have marks : c ∈ ['\n', '*', '/', '"', '\x27'] := by
    rcases openings_cases opens with ⟨rfl, rfl⟩ | ⟨rfl, rfl⟩ | ⟨rfl, rfl⟩ | ⟨rfl, rfl⟩ <;>
      grind [RegionKind.mark]
  simp only [List.mem_cons, List.not_mem_nil, or_false] at marks
  rcases marks with rfl | rfl | rfl | rfl | rfl <;> rfl

end

/-- A comment or string is an opening delimiter and what the closing one closes. -/
lemma Lexeme.Reads.exists_encloses {kind : RegionKind} {body rest : List Char} {closed : Bool}
    (reads : (Lexeme.region kind body closed).Reads rest) :
    ∃ opening inner, opening ∈ kind.openings ∧ body = opening ++ inner ∧
      Encloses (kind.mark opening) inner rest closed := by
  cases kind with
  | lineComment =>
    obtain ⟨inner, rfl, encloses⟩ := reads
    exact ⟨[';'], inner, List.mem_singleton_self _, rfl, encloses⟩
  | blockComment =>
    obtain ⟨inner, rfl, encloses⟩ := reads
    exact ⟨['/', '*'], inner, List.mem_singleton_self _, rfl, encloses⟩
  | string =>
    obtain ⟨quote, inner, is_quote, rfl, encloses⟩ := reads
    refine ⟨[quote], inner, ?_, rfl, encloses⟩
    simpa [isQuote, RegionKind.openings] using is_quote

/-! ## Words -/

/-- A word is a stretch of word characters that is as long as it can be, with the number of opening
parentheses before it, and a member if a `.` directly precedes it. -/
structure Word.Stands (word : Word) (text : List Char) (depths : List Nat) : Prop where
  slice : (text.drop word.start).take (word.stop - word.start) = word.text
  chars : ∀ c ∈ word.text, isWordChar c = true
  starts : ∀ offset c, offset + 1 = word.start → text[offset]? = some c → isWordChar c = false
  stops : ∀ c, text[word.stop]? = some c → isWordChar c = false
  depth : depths[word.start]? = some word.depth
  member : word.member = true ↔ ∃ offset, offset + 1 = word.start ∧ text[offset]? = some '.'

/-- Only a word ends with a word character, if it ends before the text does. -/
lemma Lexeme.Reads.tileKind_of_getLast? {lexeme : Lexeme} {rest : List Char}
    (reads : lexeme.Reads rest) (closed : lexeme.isOpen = false) {c : Char}
    (last : lexeme.text.getLast? = some c) (word_char : isWordChar c = true) :
    lexeme.tileKind = .word := by
  by_cases is_region : lexeme.tileKind = .region
  · cases lexeme with
    | region kind body is_closed =>
      obtain rfl : is_closed = true := by simpa [Lexeme.isOpen] using closed
      obtain ⟨opening, inner, opens, rfl, encloses⟩ := reads.exists_encloses
      obtain ⟨front, rfl⟩ := ClosedBy.exists_append encloses
      rw [Lexeme.text, ← List.append_assoc,
        List.getLast?_append_of_ne_nil _ (mark_ne_nil_of_opens opens)] at last
      rw [not_isWordChar_of_mem_mark opens (List.mem_of_getLast? last)] at word_char
      cases word_char
    | _ => cases is_region
  · rw [reads.tileKind_eq is_region (List.mem_of_getLast? last), TileKind.ofChar_word word_char]

/-- A word does not follow a word character. -/
lemma Stream.getLast?_before_word {before behind : List Lexeme} {token : List Char} {c : Char}
    (stream : Stream (before ++ .word token :: behind)) (last : (written before).getLast? = some c) :
    isWordChar c = false := by
  rcases List.eq_nil_or_concat before with rfl | ⟨earlier, lexeme, rfl⟩
  · cases last
  rw [List.concat_eq_append] at stream last
  have closed := stream.allClosed (List.cons_ne_nil _ _) lexeme (by simp)
  obtain ⟨some_token, word_chars, _⟩ := stream.reads
  rw [List.append_assoc, List.singleton_append] at stream
  have reads := stream.reads
  rw [written_append, written_cons, written_nil, List.append_nil,
    List.getLast?_append_of_ne_nil _ reads.text_ne_nil] at last
  by_contra word_char
  have is_word := reads.tileKind_of_getLast? closed last (Bool.of_not_eq_false word_char)
  -- Two words in a row would have been read as one.
  cases lexeme with
  | word token' =>
    obtain ⟨d, more, rfl⟩ := List.exists_cons_of_ne_nil some_token
    have stops := reads.2.2 d rfl
    rw [word_chars d List.mem_cons_self] at stops
    cases stops
  | _ => cases is_word

/-- The character before an offset is the last one in front of it. -/
lemma getLast?_eq_of_succ {front : List Char} {offset : Nat} (succ : offset + 1 = front.length)
    (behind : List Char) : (front ++ behind)[offset]? = front.getLast? := by
  rw [List.getElem?_append_left (by omega), List.getLast?_eq_getElem?, ← succ, Nat.add_sub_cancel]

/-- A word stands in the text. -/
lemma stands_of_mem_words {text : List Char} {word : Word}
    (mem : word ∈ (Script.ofText text).scan.words) :
    word.Stands text (Script.ofText text).scan.depths := by
  obtain ⟨piece, mem, found⟩ := List.mem_filterMap.1 mem
  obtain ⟨is_word, start, stop, depth, member⟩ := Piece.word?_eq_some found
  obtain ⟨before, behind, joint, place⟩ := exists_of_mem_placed mem
  rw [is_word] at joint
  rw [Piece.start, place, Cursor.start_after_offset] at start
  rw [Piece.stop, place, Cursor.start_after_offset, is_word, Lexeme.length, Lexeme.text] at stop
  rw [place] at depth member
  obtain ⟨stream, whole⟩ := lexemes_eq_iff.1 joint
  rw [written_append, written_cons, Lexeme.text] at whole
  have reads := stream.reads
  refine ⟨?_, reads.2.1, ?_, ?_, ?_, ?_⟩
  · rw [stop, start, ← whole, List.drop_left, Nat.add_sub_cancel_left, List.take_left]
  · intro offset c succ here
    rw [start] at succ
    rw [← whole, getLast?_eq_of_succ succ] at here
    exact stream.getLast?_before_word here
  · intro c here
    apply reads.2.2 c
    rw [stop, ← whole, List.getElem?_append_right (Nat.le_add_right _ _), Nat.add_sub_cancel_left,
      List.getElem?_append_right (Nat.le_refl _), Nat.sub_self] at here
    rw [Option.mem_def, List.head?_eq_getElem?]
    exact here
  · rw [start, depth, depths_joint joint]
  · -- Before the word the text ends with a `.`, if with anything.
    rw [member, afterDot_after stream, beq_iff_eq, start]
    constructor
    · intro last
      have some_text := List.length_pos_of_mem (List.mem_of_getLast? last)
      have succ : (written before).length - 1 + 1 = (written before).length := by omega
      exact ⟨_, succ, by rw [← whole, getLast?_eq_of_succ succ, last]⟩
    · rintro ⟨offset, succ, here⟩
      rwa [← whole, getLast?_eq_of_succ succ] at here

/-! ## Comments and strings -/

/-- The offsets behind the opening delimiter of a comment or string where its closing one stands. -/
def Region.marks (region : Region) (text : List Char) : Set Nat :=
  {offset | region.start + region.kind.width ≤ offset ∧ region.mark text <+: text.drop offset}

/-- A comment or string begins with an opening delimiter. It ends with the first closing delimiter
behind that one, or with the text if there is none. -/
structure Region.Delimited (region : Region) (text : List Char) : Prop where
  opens : (text.drop region.start).take region.kind.width ∈ region.kind.openings
  stop_of_closed : region.closed = true →
    ∃ offset, IsLeast (region.marks text) offset ∧ region.stop = offset + (region.mark text).length
  stop_of_unclosed : region.closed = false → region.stop = text.length
  unclosed_iff : region.closed = false ↔ region.marks text = ∅

/-- A text is cut behind the first place of the mark. -/
lemma isLeast_of_cutAfter? {mark text before behind : List Char}
    (cut : cutAfter? mark text = some (before, behind)) :
    ∃ offset, IsLeast {offset | mark <+: text.drop offset} offset ∧
      before.length = offset + mark.length := by
  induction text generalizing before with
  | nil => cases cut
  | cons c rest ih =>
    rw [cutAfter?] at cut
    split at cut
    · rename_i found
      obtain ⟨rfl, _⟩ := Prod.mk.inj (Option.some.inj cut)
      exact ⟨0, ⟨List.isPrefixOf_iff_prefix.1 found, fun _ _ => Nat.zero_le _⟩, (Nat.zero_add _).symm⟩
    · rename_i absent
      obtain ⟨⟨before', behind'⟩, cut', same⟩ := Option.map_eq_some_iff.1 cut
      obtain ⟨rfl, rfl⟩ := Prod.mk.inj same
      obtain ⟨offset, ⟨found, least⟩, length⟩ := ih cut'
      refine ⟨offset + 1, ⟨found, ?_⟩, ?_⟩
      · intro other found'
        cases other with
        | zero => exact absurd (List.isPrefixOf_iff_prefix.2 found') absent
        | succ other => exact Nat.succ_le_succ (least found')
      · rw [List.length_cons, length]
        omega

/-- What stands in a text at a comment or string. -/
lemma exists_encloses_of_mem {text : List Char} {region : Region}
    (mem : region ∈ (Script.ofText text).scan.regions) :
    ∃ opening inner behind, opening ∈ region.kind.openings ∧
      text.drop region.start = opening ++ (inner ++ behind) ∧
      region.stop = region.start + region.kind.width + inner.length ∧
      text.length = region.stop + behind.length ∧
      Lexeme.Encloses (region.kind.mark opening) inner behind region.closed := by
  obtain ⟨piece, mem, found⟩ := List.mem_filterMap.1 mem
  obtain ⟨body, same, start, stop⟩ := Piece.region?_eq_some found
  obtain ⟨before, behind, joint, place⟩ := exists_of_mem_placed mem
  rw [same] at joint
  obtain ⟨stream, whole⟩ := lexemes_eq_iff.1 joint
  obtain ⟨opening, inner, opens, rfl, encloses⟩ := stream.reads.exists_encloses
  rw [written_append, written_cons, Lexeme.text, List.append_assoc] at whole
  rw [Piece.start, place, Cursor.start_after_offset] at start
  have stop : region.stop = region.start + region.kind.width + inner.length := by
    rw [stop, start, Piece.stop, place, Cursor.start_after_offset, same, Lexeme.length, Lexeme.text,
      List.length_append, length_of_opens opens, Nat.add_assoc]
  refine ⟨opening, inner, written behind, opens, ?_, stop, ?_, encloses⟩
  · rw [start, ← whole, List.drop_left]
  · rw [stop, start, ← whole, List.length_append, List.length_append, List.length_append,
      length_of_opens opens]
    omega

section
variable {text opening rest : List Char} {region : Region} (opens : opening ∈ region.kind.openings)
  (at_start : text.drop region.start = opening ++ rest)
include opens at_start

/-- The mark that ends a comment or string is told by its opening. -/
lemma Region.mark_eq_of_opens : region.mark text = region.kind.mark opening := by
  rw [Region.mark, at_start, mark_append_of_opens opens]

/-- Behind the opening delimiter, the closing one is looked for. -/
lemma Region.mem_marks_iff {offset : Nat} :
    offset ∈ region.marks text ↔ ∃ inside, offset = region.start + region.kind.width + inside ∧
      region.kind.mark opening <+: rest.drop inside := by
  have at_inside : ∀ inside, text.drop (region.start + region.kind.width + inside)
      = rest.drop inside := by
    intro inside
    rw [← List.drop_drop, ← List.drop_drop, at_start, List.drop_left' (length_of_opens opens)]
  constructor
  · rintro ⟨beyond, found⟩
    obtain ⟨inside, rfl⟩ := Nat.exists_eq_add_of_le beyond
    rw [Region.mark_eq_of_opens opens at_start, at_inside] at found
    exact ⟨inside, rfl, found⟩
  · rintro ⟨inside, rfl, found⟩
    refine ⟨Nat.le_add_right _ _, ?_⟩
    rwa [Region.mark_eq_of_opens opens at_start, at_inside]

end

/-- A comment or string stands between its marks. -/
lemma delimited_of_mem_regions {text : List Char} {region : Region}
    (mem : region ∈ (Script.ofText text).scan.regions) : region.Delimited text := by
  obtain ⟨opening, inner, behind, opens, at_start, stop, length, encloses⟩ :=
    exists_encloses_of_mem mem
  have width := length_of_opens opens
  have is_mark := Region.mark_eq_of_opens opens at_start
  have found_iff := fun offset => @Region.mem_marks_iff _ _ _ _ opens at_start offset
  have opens' : (text.drop region.start).take region.kind.width ∈ region.kind.openings := by
    rw [at_start, List.take_left' width]
    exact opens
  cases closed : region.closed with
  | true =>
    rw [closed] at encloses
    obtain ⟨offset, ⟨found, least⟩, length_inner⟩ :=
      isLeast_of_cutAfter? (ClosedBy.cut_append encloses behind)
    have first : IsLeast (region.marks text) (region.start + region.kind.width + offset) := by
      refine ⟨(found_iff _).2 ⟨offset, rfl, found⟩, ?_⟩
      intro other mem
      obtain ⟨inside, rfl, found'⟩ := (found_iff other).1 mem
      exact Nat.add_le_add_left (least found') _
    have some_mark := Set.Nonempty.ne_empty ⟨_, first.1⟩
    refine ⟨opens', fun _ => ⟨_, first, ?_⟩, ?_, ?_⟩
    · rw [stop, is_mark, length_inner, Nat.add_assoc _ offset]
    · rw [closed]
      exact nofun
    · rw [closed]
      exact iff_of_false nofun some_mark
  | false =>
    rw [closed] at encloses
    obtain ⟨uncut, rfl⟩ := encloses
    have nowhere := (uncut_iff (mark_ne_nil_of_opens opens)).1 uncut
    have no_mark : region.marks text = ∅ := by
      rw [Set.eq_empty_iff_forall_notMem]
      intro offset mem
      obtain ⟨inside, _, found⟩ := (found_iff offset).1 mem
      rw [List.append_nil] at found
      exact nowhere (found.isInfix.trans (List.drop_suffix inside inner).isInfix)
    refine ⟨opens', ?_, fun _ => length.symm, iff_of_true closed no_mark⟩
    rw [closed]
    exact nofun

/-- Comments and strings ascend. -/
lemma ascending_regions (text : List Char) :
    Ascending ((Script.ofText text).scan.regions.map Region.span) := by
  apply ascending_filterMap
  intro piece region found
  obtain ⟨_, _, span⟩ := Piece.region?_eq_some found
  exact span

/-- Nothing follows a comment or string that is not closed. -/
lemma getLast?_of_unclosed {text : List Char} {region : Region}
    (mem : region ∈ (Script.ofText text).scan.regions) (unclosed : region.closed = false) :
    (Script.ofText text).scan.regions.getLast? = some region := by
  have stop := (delimited_of_mem_regions mem).stop_of_unclosed unclosed
  obtain ⟨before, behind, split⟩ := List.append_of_mem mem
  cases behind with
  | nil => rw [split, List.getLast?_concat]
  | cons next more =>
    have next_mem : next ∈ (Script.ofText text).scan.regions := by
      rw [split]
      exact List.mem_append_right _ (List.mem_cons_of_mem _ List.mem_cons_self)
    obtain ⟨_, _, _, _, _, _, length, _⟩ := exists_encloses_of_mem next_mem
    obtain ⟨nonempty, order⟩ := ascending_regions text
    have some_text : next.start < next.stop := nonempty _ (List.mem_map_of_mem next_mem)
    rw [split, List.map_append, List.map_cons, List.map_cons, List.pairwise_append,
      List.pairwise_cons] at order
    have apart : region.stop ≤ next.start := (order.2.1.1 _ List.mem_cons_self).2
    omega

/-! ## The whole scan -/

/-- The lists of a scan divide a text into tiles. -/
structure Scan.Partitions (scan : Scan) (text : List Char) : Prop where
  /-- Every offset belongs to one tile. -/
  tile : ∀ offset < text.length,
    ∃! tile : Tile, tile.Of text scan ∧ offset ∈ Set.Ico tile.start tile.stop
  within : ∀ tile : Tile, tile.Of text scan → tile.start < tile.stop ∧ tile.stop ≤ text.length
  /-- In the code, the characters decide about the kind. -/
  kind : ∀ tile : Tile, tile.Of text scan → tile.kind ≠ .region →
    ∀ offset ∈ Set.Ico tile.start tile.stop, ∀ c, text[offset]? = some c → tile.kind = .ofChar c
  regions : Ascending (scan.regions.map Region.span)
  words : Ascending (scan.words.map Word.span)
  punctuation : Ascending scan.punctuation
  atoms : Ascending (scan.atoms.map Atom.span)
  /-- The atoms are the words and the parentheses in the code. -/
  words_of_atoms : scan.atoms.filterMap Atom.word? = scan.words
  opening_iff : ∀ offset, (∃ atom ∈ scan.atoms, atom.alone = .opening offset none)
    ↔ text[offset]? = some '(' ∧ scan.InCode offset
  closing_iff : ∀ offset, (∃ atom ∈ scan.atoms, atom.alone = .closing offset none)
    ↔ text[offset]? = some ')' ∧ scan.InCode offset
  word : ∀ word ∈ scan.words, word.Stands text scan.depths
  region : ∀ region ∈ scan.regions, region.Delimited text
  unclosed : ∀ region ∈ scan.regions, region.closed = false → scan.regions.getLast? = some region

/-- A scan divides its text: every offset belongs to a comment or string, a word, a run of punctuation
or a parenthesis, or is a blank or line end in the code, and to no two of them. -/
theorem scan_partitions (text : List Char) : (Scan.ofText text).Partitions text where
  tile := fun _ => exists_unique_tile
  within := by
    intro tile listed
    obtain ⟨piece, mem, rfl⟩ := Tile.Of.exists_piece listed
    exact ⟨(lexemes_stream text).start_lt_stop mem, stop_le_length_of_mem_pieces mem⟩
  kind := by
    intro tile listed no_region offset covers c here
    obtain ⟨piece, mem, rfl⟩ := Tile.Of.exists_piece listed
    exact tileKind_of_char mem covers here ((inCode_iff mem covers).2 no_region)
  regions := ascending_regions text
  words := by
    apply ascending_filterMap
    intro piece word found
    obtain ⟨_, start, stop, _⟩ := Piece.word?_eq_some found
    exact ⟨start, stop⟩
  punctuation := by
    rw [← List.map_id (Scan.ofText text).punctuation]
    apply ascending_filterMap
    intro piece span found
    exact (Piece.punctuation?_eq_some found).2
  atoms := ascending_atoms text
  words_of_atoms := filterMap_word?_atoms text
  opening_iff := fun _ => exists_parenthesis_iff rfl rfl fun _ => Piece.atom?_eq_opening
  closing_iff := fun _ => exists_parenthesis_iff rfl rfl fun _ => Piece.atom?_eq_closing
  word := fun _ => stands_of_mem_words
  region := fun _ => delimited_of_mem_regions
  unclosed := fun _ => getLast?_of_unclosed

end KixScript

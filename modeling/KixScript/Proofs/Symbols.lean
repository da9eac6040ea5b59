import KixScript.Proofs.Joining
import KixScript.Workspace
import Mathlib.Data.List.Perm.Basic

/-!
# Symbols of documents

A name of the outline stands in one word, so it is written on one line (`Names.shows`). A word cannot
both declare a function and be a label, which begins with a colon; so no two names share an offset
(`pairwise_tagged`), and sorting the symbols by their places leaves no two at the same place
(`symbols_in_order`).
-/

namespace KixScript

/-- A name as it is written in a script. -/
def SymbolKind.written : SymbolKind → List Char → List Char
  | .function, name => name
  | .label, name => ':' :: name

/-- The characters of a text in a range. -/
def Range.cut (range : Range) (text : List Char) : List Char :=
  (text.take (offsetOf text range.stop)).drop (offsetOf text range.start)

/-- The named places of an outline, each with its kind. -/
def Outline.tagged (outline : Outline) : List (SymbolKind × OutlineEntry) :=
  outline.functions.map (Prod.mk .function) ++ outline.labels.map (Prod.mk .label)

namespace DocumentSymbol

/-- The named place that a symbol shows. -/
def entry (text : List Char) (symbol : DocumentSymbol) : SymbolKind × OutlineEntry :=
  (symbol.kind, ⟨symbol.name, offsetOf text symbol.selection.start⟩)

/-- The range of a symbol is a line without what ends it, and its selection is the name as it is
written there. -/
structure Shows (text : List Char) (symbol : DocumentSymbol) : Prop where
  range : ∃ line, (Script.ofText text).lines[symbol.range.start.line]? = some line ∧
    symbol.range = ⟨⟨symbol.range.start.line, 0⟩, ⟨symbol.range.start.line, line.text.length⟩⟩
  start_line : symbol.selection.start.line = symbol.range.start.line
  stop_line : symbol.selection.stop.line = symbol.range.start.line
  start_le_stop : symbol.selection.start.column ≤ symbol.selection.stop.column
  stop_le : symbol.selection.stop.column ≤ symbol.range.stop.column
  named : symbol.selection.cut text = symbol.kind.written symbol.name

end DocumentSymbol

/-! ## What the outline names -/

/-- The name of a place is written at its offset, without a line end. -/
structure Names (text : List Char) (kind : SymbolKind) (entry : OutlineEntry) : Prop where
  written : ∃ front back, text = front ++ (kind.written entry.name ++ back) ∧
    entry.position = front.length
  nonempty : kind.written entry.name ≠ []
  no_end : ∀ c ∈ kind.written entry.name, isLineEnd c = false

section
variable {place : Surroundings} {token : List Char} {fragment : Fragment} {rest : List Fragment}
  (first : fragments place token = fragment :: rest)
include first

/-- A token is the text of its fragments. -/
lemma token_eq : token = fragment.text ++ Fragment.textOf rest := by
  rw [← fragments_text place token, first, Fragment.textOf_cons]

/-- The first fragment begins as its token does. Only a colon begins a label, and none begins a
declaration. -/
lemma exists_head_of_fragments :
    ∃ c run, fragment.text = c :: run ∧ token.head? = some c ∧
      (fragment.tokenClass = .label → c = ':') ∧
      (fragment.tokenClass = .functionDeclaration → c ≠ ':') := by
  have well_formed := Fragment.wellFormed_of_mem_fragments (first ▸ List.mem_cons_self)
  obtain ⟨c, run, same⟩ := List.exists_cons_of_ne_nil well_formed.nonempty
  refine ⟨c, run, same, ?_, ?_, ?_⟩
  · rw [token_eq first, same]
    rfl
  · intro is_label
    have colon := well_formed.sigil ':' (by rw [is_label]; rfl)
    rw [same] at colon
    exact Option.some.inj colon
  · rintro declares rfl
    exact Bool.false_ne_true (well_formed.declared declares ':' (same ▸ List.mem_cons_self))

end

namespace Piece
variable {piece : Piece} {entry : OutlineEntry}

/-- A declaration is the first fragment of a word. -/
lemma exists_of_mem_declared (mem : entry ∈ piece.declared) :
    ∃ token fragment rest, piece.lexeme = .word token ∧
      KixScript.fragments piece.surroundings token = fragment :: rest ∧
      fragment.tokenClass = .functionDeclaration ∧ entry = ⟨fragment.text, piece.start⟩ := by
  obtain ⟨lexeme, cursor⟩ := piece
  cases lexeme with
  | word token =>
    unfold declared declaredName? at mem
    cases first : Piece.fragments ⟨.word token, cursor⟩ with
    | nil =>
      rw [first] at mem
      cases mem
    | cons fragment rest =>
      rw [first] at mem
      dsimp only [word?] at mem
      split at mem
      · rename_i declares
        obtain rfl := List.mem_singleton.1 mem
        exact ⟨token, fragment, rest, rfl, first, declares, rfl⟩
      · cases mem
  | _ => cases mem

/-- A label is the first fragment of a word, without its colon. -/
lemma exists_of_mem_label (mem : entry ∈ piece.label) :
    ∃ token fragment rest, piece.lexeme = .word token ∧
      KixScript.fragments .plain token = fragment :: rest ∧
      fragment.tokenClass = .label ∧ entry = ⟨fragment.text.tail, piece.start⟩ := by
  obtain ⟨lexeme, cursor⟩ := piece
  cases lexeme with
  | word token =>
    unfold label Word.label? at mem
    dsimp only [word?, Option.bind_some] at mem
    cases first : KixScript.fragments .plain token with
    | nil =>
      rw [first] at mem
      cases mem
    | cons fragment rest =>
      rw [first] at mem
      dsimp only at mem
      split at mem
      · rename_i is_label
        obtain rfl := List.mem_singleton.1 mem
        exact ⟨token, fragment, rest, rfl, first, is_label, rfl⟩
      · cases mem
  | _ => cases mem

/-- A piece declares a function or is a label, but never both. -/
lemma not_mem_label (mem : entry ∈ piece.declared) (entry' : OutlineEntry) : entry' ∉ piece.label := by
  intro mem'
  obtain ⟨token, fragment, rest, word, first, declares, _⟩ := exists_of_mem_declared mem
  obtain ⟨token', fragment', rest', word', first', is_label, _⟩ := exists_of_mem_label mem'
  obtain rfl := Lexeme.word.inj (word.symm.trans word')
  obtain ⟨c, _, _, head, _, no_colon⟩ := exists_head_of_fragments first
  obtain ⟨c', _, _, head', colon, _⟩ := exists_head_of_fragments first'
  obtain rfl := Option.some.inj (head.symm.trans head')
  exact no_colon declares (colon is_label)

end Piece

section
variable {text : List Char}

/-- The first fragment of a word is written where the word begins. -/
lemma exists_written {piece : Piece} (mem : piece ∈ (Script.ofText text).scan.pieces)
    {token : List Char} (is_word : piece.lexeme = .word token) {place : Surroundings}
    {fragment : Fragment} {rest : List Fragment} (first : fragments place token = fragment :: rest) :
    (∃ front back, text = front ++ (fragment.text ++ back) ∧ piece.start = front.length) ∧
      ∀ c ∈ fragment.text, isLineEnd c = false := by
  obtain ⟨before, behind, joint, start⟩ := exists_of_mem_placed mem
  have parts := text_of_joint joint
  have reads := (lexemes_eq_iff.1 joint).1.reads
  rw [is_word] at parts reads
  have same := token_eq first
  refine ⟨⟨written before, Fragment.textOf rest ++ written behind, ?_, ?_⟩, ?_⟩
  · rw [parts, ← List.append_assoc fragment.text, ← same]
    rfl
  · rw [Piece.start, start, Cursor.start_after_offset]
  · intro c c_mem
    have no_space := not_space_of_isWordChar
      (reads.2.1 c (same ▸ List.mem_append_left _ c_mem))
    exact (Bool.or_eq_false_iff.1 no_space).2

/-- Every entry of the outline names its place. -/
lemma names_of_mem_tagged {kind : SymbolKind} {entry : OutlineEntry}
    (mem : (kind, entry) ∈ (Script.ofText text).outline.tagged) : Names text kind entry := by
  rw [Outline.tagged, outline_ofText] at mem
  rcases List.mem_append.1 mem with mem | mem
  · obtain ⟨entry', entry_mem, same⟩ := List.mem_map.1 mem
    obtain ⟨rfl, rfl⟩ := Prod.mk.inj same
    obtain ⟨piece, piece_mem, declared⟩ := List.mem_flatMap.1 entry_mem
    obtain ⟨token, fragment, rest, is_word, first, _, rfl⟩ := Piece.exists_of_mem_declared declared
    obtain ⟨written, no_end⟩ := exists_written piece_mem is_word first
    refine ⟨written, ?_, no_end⟩
    exact (Fragment.wellFormed_of_mem_fragments (first ▸ List.mem_cons_self)).nonempty
  · obtain ⟨entry', entry_mem, same⟩ := List.mem_map.1 mem
    obtain ⟨rfl, rfl⟩ := Prod.mk.inj same
    obtain ⟨piece, piece_mem, label⟩ := List.mem_flatMap.1 entry_mem
    obtain ⟨token, fragment, rest, is_word, first, is_label, rfl⟩ := Piece.exists_of_mem_label label
    obtain ⟨written, no_end⟩ := exists_written piece_mem is_word first
    obtain ⟨c, run, head, _, colon, _⟩ := exists_head_of_fragments first
    have whole : SymbolKind.label.written fragment.text.tail = fragment.text := by
      rw [head, colon is_label]
      rfl
    refine ⟨?_, List.cons_ne_nil _ _, ?_⟩
    · rw [whole]
      exact written
    · rw [whole]
      exact no_end

/-- The names that a piece gives to an outline stand where it begins, and it has one at most. -/
lemma Piece.pairwise_names (piece : Piece) :
    (∀ entry ∈ piece.declared ++ piece.label, entry.position = piece.start) ∧
      (piece.declared ++ piece.label).Pairwise fun entry entry' => entry.position ≠ entry'.position := by
  refine ⟨?_, ?_⟩
  · intro entry mem
    rcases List.mem_append.1 mem with mem | mem
    · obtain ⟨_, _, _, _, _, _, rfl⟩ := exists_of_mem_declared mem
      rfl
    · obtain ⟨_, _, _, _, _, _, rfl⟩ := exists_of_mem_label mem
      rfl
  · rw [List.pairwise_append]
    refine ⟨?_, ?_, fun entry mem entry' mem' => absurd mem' (not_mem_label mem entry')⟩
    · rw [declared]
      cases piece.declaredName? with
      | none => exact .nil
      | some word => exact List.pairwise_singleton _ _
    · rw [label]
      cases piece.word?.bind Word.label? with
      | none => exact .nil
      | some word => exact List.pairwise_singleton _ _

/-- No two names share an offset. -/
lemma pairwise_tagged (text : List Char) :
    (Script.ofText text).outline.tagged.Pairwise
      fun named named' => named.2.position ≠ named'.2.position := by
  have apart : ((Script.ofText text).outline.functions ++ (Script.ofText text).outline.labels).Pairwise
      fun entry entry' => entry.position ≠ entry'.position := by
    rw [outline_ofText, (List.flatMap_append_perm _ _ _).pairwise_iff fun distinct => Ne.symm distinct,
      List.pairwise_flatMap]
    refine ⟨fun piece _ => piece.pairwise_names.2, ?_⟩
    refine (pairwise_placed .start (lexemes text)).imp_of_mem ?_
    intro piece piece' mem _ order entry entry_mem entry' entry_mem'
    obtain ⟨rest, reads, _⟩ := exists_reads_of_mem_pieces mem
    have some_text := List.length_pos_iff.2 reads.text_ne_nil
    rw [piece.pairwise_names.1 entry entry_mem, piece'.pairwise_names.1 entry' entry_mem']
    rw [Piece.stop, Lexeme.length] at order
    exact Nat.ne_of_lt (Nat.lt_of_lt_of_le (Nat.lt_add_of_pos_right some_text) order)
  have untagged : (Script.ofText text).outline.tagged.map Prod.snd
      = (Script.ofText text).outline.functions ++ (Script.ofText text).outline.labels := by
    rw [Outline.tagged, List.map_append, List.map_map, List.map_map]
    exact congrArg₂ _ (List.map_id _) (List.map_id _)
  rw [← untagged, List.pairwise_map] at apart
  exact apart

end

/-! ## Symbols in their places -/

namespace Position

/-- Places are compared by their lines, and on one line by their columns. -/
lemma le_iff {place place' : Position} : place.le place' = true ↔
    place.line < place'.line ∨ place.line = place'.line ∧ place.column ≤ place'.column := by
  simp only [le, Bool.or_eq_true, Bool.and_eq_true, decide_eq_true_eq, beq_iff_eq]

/-- The order of places is transitive. -/
lemma le_trans {place place' place'' : Position} (first : place.le place' = true)
    (second : place'.le place'' = true) : place.le place'' = true := by
  rw [le_iff] at first second ⊢
  omega

/-- The order of places is total. -/
lemma le_total (place place' : Position) : (place.le place' || place'.le place) = true := by
  rw [Bool.or_eq_true, le_iff, le_iff]
  omega

/-- Of two different places in order, the first is before the other. -/
lemma before_of_le_of_ne {place place' : Position} (order : place.le place' = true)
    (distinct : place ≠ place') : place.Before place' := by
  rcases le_iff.1 order with above | ⟨same, column⟩
  · exact .inl above
  · refine .inr ⟨same, Nat.lt_of_le_of_ne column fun same' => distinct ?_⟩
    cases place
    cases place'
    exact congrArg₂ _ same same'

end Position

/-- The symbol for a named place. -/
def Script.symbolOf (script : Script) (named : SymbolKind × OutlineEntry) : DocumentSymbol :=
  script.symbolFor named.1 (named.1.written named.2.name).length named.2

/-- The symbols are those of the outline, sorted by their places. -/
lemma symbols_eq (script : Script) :
    script.symbols = (script.outline.tagged.map script.symbolOf).mergeSort
      fun symbol symbol' => symbol.selection.start.le symbol'.selection.start := by
  rw [Outline.tagged, List.map_append, List.map_map, List.map_map]
  rfl

/-- A range on the line of an offset cuts out the characters from that offset on. -/
lemma cut_onLine {text : List Char} {offset : Nat} (bound : offset ≤ text.length) (length : Nat) :
    (Range.onLine ((Script.ofText text).position offset).line
      ((Script.ofText text).position offset).column length).cut text
      = (Script.ofText text).slice offset (offset + length) := by
  have start := offsetOf_position bound
  have stop : offsetOf text ⟨((Script.ofText text).position offset).line,
      ((Script.ofText text).position offset).column + length⟩ = offset + length := by
    rw [offsetOf, ← Nat.add_assoc]
    exact congrArg (· + length) start
  rw [Range.cut, Range.onLine, stop, start, List.drop_take, Script.slice]
  rfl

namespace Names
variable {text : List Char} {kind : SymbolKind} {entry : OutlineEntry} (names : Names text kind entry)
include names

/-- Every entry of the outline is in the text. -/
lemma position_le : entry.position ≤ text.length := by
  obtain ⟨front, back, parts, place⟩ := names.written
  rw [parts, List.length_append, place]
  exact Nat.le_add_right _ _

/-- The entry can be told from its symbol. -/
lemma entry_symbolOf :
    ((Script.ofText text).symbolOf (kind, entry)).entry text = (kind, entry) :=
  congrArg (fun position => (kind, OutlineEntry.mk entry.name position))
    (offsetOf_position names.position_le)

/-- The symbol for a named place shows its name. -/
lemma shows : ((Script.ofText text).symbolOf (kind, entry)).Shows text := by
  obtain ⟨front, back, parts, place⟩ := names.written
  obtain ⟨line, found, _, holds⟩ := exists_line_of_run parts names.nonempty names.no_end
  have width : ((Script.ofText text).lines[((Script.ofText text).position entry.position).line]?.map
      fun line => line.text.length).getD 0 = line.text.length := by
    rw [place, found]
    rfl
  rw [← place] at found holds
  refine ⟨⟨line, found, ?_⟩, rfl, rfl, Nat.le_add_right _ _, ?_, ?_⟩
  · rw [Script.symbolOf, Script.symbolFor]
    dsimp only
    rw [width, Range.onLine, Nat.zero_add]
  · rw [Script.symbolOf, Script.symbolFor]
    dsimp only
    rw [width, Range.onLine, Range.onLine, Nat.zero_add]
    exact holds.length_le
  · have cut := cut_onLine names.position_le (kind.written entry.name).length
    rw [Script.symbolOf, Script.symbolFor]
    dsimp only
    rw [cut, place]
    exact slice_between parts

end Names

/-- The symbols of a stored document are those of its outline, in the order of their selections. The
range of each is its line, and its selection is the name on that line. -/
theorem symbols_in_order (room : Nat) (workspace : Workspace) {name : String} {text : List Char}
    (stored : workspace.text? name = some text) :
    ∃ symbols, workspace.handle room (.symbols name) = (.symbols symbols, workspace) ∧
      (symbols.map (DocumentSymbol.entry text)).Perm (Script.ofText text).outline.tagged ∧
      symbols.Pairwise
        (fun symbol symbol' => symbol.selection.start.Before symbol'.selection.start) ∧
      ∀ symbol ∈ symbols, symbol.Shows text := by
  have sorted := symbols_eq (Script.ofText text)
  have handled : workspace.handle room (.symbols name)
      = (.symbols (Script.ofText text).symbols, workspace) := by
    rw [Workspace.handle, Workspace.ask, stored]
  refine ⟨_, handled, ?_⟩
  have perm := List.mergeSort_perm
    ((Script.ofText text).outline.tagged.map (Script.ofText text).symbolOf)
    fun symbol symbol' => symbol.selection.start.le symbol'.selection.start
  rw [← sorted] at perm
  refine ⟨?_, ?_, ?_⟩
  · have entries : ((Script.ofText text).outline.tagged.map (Script.ofText text).symbolOf).map
        (DocumentSymbol.entry text) = (Script.ofText text).outline.tagged := by
      rw [List.map_map]
      exact (List.map_congr_left fun named mem => (names_of_mem_tagged mem).entry_symbolOf).trans
        (List.map_id _)
    rw [← entries]
    exact perm.map _
  · have order : (Script.ofText text).symbols.Pairwise fun symbol symbol' =>
        symbol.selection.start.le symbol'.selection.start = true := by
      rw [sorted]
      apply List.pairwise_mergeSort
      · exact fun _ _ _ => Position.le_trans
      · exact fun symbol symbol' => Position.le_total _ _
    have distinct : (Script.ofText text).symbols.Pairwise fun symbol symbol' =>
        symbol.selection.start ≠ symbol'.selection.start := by
      rw [perm.pairwise_iff fun distinct => Ne.symm distinct, List.pairwise_map]
      refine (pairwise_tagged text).imp_of_mem ?_
      intro named named' mem mem' apart same
      apply apart
      rw [← offsetOf_position (names_of_mem_tagged mem).position_le,
        ← offsetOf_position (names_of_mem_tagged mem').position_le]
      exact congrArg (offsetOf text) same
    exact (order.and distinct).imp fun both => Position.before_of_le_of_ne both.1 both.2
  · intro symbol mem
    obtain ⟨named, named_mem, rfl⟩ := List.mem_map.1 (perm.mem_iff.1 mem)
    exact (names_of_mem_tagged named_mem).shows

/-- A label, and a function declared behind it. -/
def namedText : List Char :=
  ":end\r\nFunction Sum($a)".toList

/-- A workspace with a document that names two places. -/
def namedWorkspace : Workspace :=
  Workspace.empty.store "a.kix" namedText

/-- The function and the label are both shown. -/
theorem symbols_of_namedWorkspace :
    namedWorkspace.text? "a.kix" = some namedText ∧
    ∃ symbols, namedWorkspace.handle 1 (.symbols "a.kix") = (.symbols symbols, namedWorkspace) ∧
      (symbols.map (DocumentSymbol.entry namedText)).Perm
        [(.function, ⟨['S', 'u', 'm'], 15⟩), (.label, ⟨['e', 'n', 'd'], 0⟩)] ∧
      ∀ symbol ∈ symbols, symbol.Shows namedText := by
  have stored : namedWorkspace.text? "a.kix" = some namedText := by decide +kernel
  have tagged : (Script.ofText namedText).outline.tagged
      = [(.function, ⟨['S', 'u', 'm'], 15⟩), (.label, ⟨['e', 'n', 'd'], 0⟩)] := by
    decide +kernel
  obtain ⟨symbols, handled, entries, _, shows⟩ := symbols_in_order 1 namedWorkspace stored
  rw [tagged] at entries
  exact ⟨stored, symbols, handled, entries, shows⟩

end KixScript

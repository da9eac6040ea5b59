import KixScript.Proofs.Cover
import KixScript.Proofs.Positions
import KixScript.Proofs.Resumption
import KixScript.Proofs.Views

/-!
# Texts one after another

Behind whole lines in which every comment and string is closed, a text is read as if nothing stood
before it (`lexemes_joined`). What is known there is what is known at the beginning, but for the offset
and the depth (`Cursor.Follows`), and neither decides how a word is classified. So what is found in the
pieces of the text is the same, farther on (`view_joined`); and its lines are lower by those of the
text above (`position_behind`). This gives the parts, the outline and the warnings of both texts
together (`highlight_joined`).
-/

namespace KixScript

/-- A part that stands farther on. -/
def Part.shifted (distance : Nat) (part : Part) : Part :=
  { part with start := part.start + distance, stop := part.stop + distance }

/-- A named place that stands farther on. -/
def OutlineEntry.shifted (distance : Nat) (entry : OutlineEntry) : OutlineEntry :=
  { entry with position := entry.position + distance }

/-- A warning about a lower line. -/
def Warning.lowered (lines : Nat) (warning : Warning) : Warning :=
  { warning with line := warning.line + lines }

/-- A cursor farther on that knows the same, but for the depth. -/
structure Cursor.Follows (distance : Nat) (cursor cursor' : Cursor) : Prop where
  offset : cursor'.offset = cursor.offset + distance
  afterDot : cursor'.afterDot = cursor.afterDot
  lead : cursor'.lead = cursor.lead

/-- The functions that a piece names in an outline. -/
def Piece.declared (piece : Piece) : List OutlineEntry :=
  (piece.declaredName?.map fun word => ⟨word.text, word.start⟩).toList

/-- The labels that a piece names in an outline. -/
def Piece.label (piece : Piece) : List OutlineEntry :=
  (piece.word?.bind Word.label?).toList

/-- An outline has what the pieces declare and name. -/
lemma outline_ofText (text : List Char) :
    (Script.ofText text).outline = ⟨(Script.ofText text).scan.pieces.flatMap Piece.declared,
      (Script.ofText text).scan.pieces.flatMap Piece.label⟩ := by
  have words : (Script.ofText text).scan.words
      = (Script.ofText text).scan.pieces.filterMap Piece.word? := rfl
  rw [Script.outline, Script.declaredFunctions, words, List.map_filterMap, List.filterMap_filterMap,
    List.filterMap_eq_flatMap_toList, List.filterMap_eq_flatMap_toList]
  rfl

section
variable {distance : Nat} {cursor cursor' : Cursor}

/-- A cursor that follows another does so behind a lexeme. -/
lemma Cursor.Follows.advance (follows : cursor.Follows distance cursor') (lexeme : Lexeme) :
    (cursor.advance lexeme).Follows distance (cursor'.advance lexeme) := by
  obtain ⟨offset, dot, lead⟩ := follows
  refine ⟨?_, rfl, Cursor.leadAfter_congr dot lead lexeme⟩
  rw [Cursor.offset_advance, Cursor.offset_advance, offset]
  omega

/-- What is seen in each piece stands farther on, and so does what is seen in all of them. -/
lemma flatMap_placed {α : Type} {view : Piece → List α} {carry : α → α}
    (each : ∀ {cursor cursor' : Cursor}, cursor.Follows distance cursor' → ∀ lexeme,
      view ⟨lexeme, cursor'⟩ = (view ⟨lexeme, cursor⟩).map carry)
    (follows : cursor.Follows distance cursor') (lexemes : List Lexeme) :
    (placed cursor' lexemes).flatMap view = ((placed cursor lexemes).flatMap view).map carry := by
  induction lexemes generalizing cursor cursor' with
  | nil => rfl
  | cons lexeme rest ih =>
    rw [placed_cons, placed_cons, List.flatMap_cons, List.flatMap_cons, List.map_append,
      each follows, ih (follows.advance lexeme)]

namespace Cursor.Follows
variable (follows : cursor.Follows distance cursor') (lexeme : Lexeme)
include follows

/-- A piece behind a cursor that follows has the same fragments. -/
lemma fragments : Piece.fragments ⟨lexeme, cursor'⟩ = Piece.fragments ⟨lexeme, cursor⟩ := by
  cases lexeme with
  | word token =>
    have same : Piece.surroundings ⟨.word token, cursor'⟩ = Piece.surroundings ⟨.word token, cursor⟩ := by
      rw [Piece.surroundings, Piece.surroundings, follows.afterDot, follows.lead]
    exact congrArg (KixScript.fragments · token) same
  | _ => rfl

/-- A piece behind a cursor that follows has the same parts, further on. -/
lemma parts : Piece.parts ⟨lexeme, cursor'⟩
    = (Piece.parts ⟨lexeme, cursor⟩).map (Part.shifted distance) := by
  rw [Piece.parts, Piece.parts, follows.fragments, Piece.start, follows.offset]
  exact partsFrom_map (· + distance) fun count _ => Nat.add_right_comm _ _ _

/-- The function that a piece declares is named farther on. -/
lemma declared : (Piece.declared ⟨lexeme, cursor'⟩)
    = (Piece.declared ⟨lexeme, cursor⟩).map (OutlineEntry.shifted distance) := by
  have same := follows.fragments lexeme
  cases lexeme with
  | word token =>
    unfold Piece.declared Piece.declaredName?
    rw [same]
    cases Piece.fragments ⟨.word token, cursor⟩ with
    | nil => rfl
    | cons fragment rest =>
      dsimp only [Piece.word?]
      split
      · simp [OutlineEntry.shifted, Piece.start, follows.offset]
      · rfl
  | _ => rfl

/-- So is the label that a piece is. -/
lemma label : Piece.label ⟨lexeme, cursor'⟩
    = (Piece.label ⟨lexeme, cursor⟩).map (OutlineEntry.shifted distance) := by
  cases lexeme with
  | word token =>
    unfold Piece.label Word.label?
    dsimp only [Piece.word?, Option.bind_some]
    cases KixScript.fragments .plain token with
    | nil => rfl
    | cons fragment rest =>
      dsimp only
      split
      · simp [OutlineEntry.shifted, Piece.start, follows.offset]
      · rfl
  | _ => rfl

end Cursor.Follows

end

/-! ## What is read behind whole lines -/

section
variable {above : List Char} (whole : WholeLines above)
  (closed : ∀ region ∈ (Script.ofText above).scan.regions, region.closed = true)
include whole closed

/-- Behind whole lines without an open comment or string, reading begins anew. -/
lemma lexemes_joined :
    (∀ behind, lexemes (above ++ behind) = lexemes above ++ lexemes behind) ∧
      Cursor.start.Follows above.length (Cursor.start.after (lexemes above)) := by
  have offset : (Cursor.start.after (lexemes above)).offset = 0 + above.length := by
    rw [Cursor.start_after_offset, ← length_eq_of_lexemes rfl, Nat.zero_add]
  rcases List.eq_nil_or_concat (lexemes above) with nothing | ⟨before, last, split⟩
  · rw [nothing] at offset ⊢
    refine ⟨fun behind => ?_, offset, rfl, rfl⟩
    rw [lexemes_append (nothing ▸ settled_nil), nothing]
  · rw [List.concat_eq_append] at split
    -- A comment or string that holds the last line feed would still be open, except a line comment.
    have ends : last.endsLine = true := by
      rcases endsLine_or_open whole split with ends | ⟨kind, body, rfl, _⟩
      · exact ends
      · have is_closed := allClosed_of_regions closed
        rw [split] at is_closed
        cases is_closed _ (List.mem_append_right before List.mem_cons_self)
    have settled : Settled (lexemes above) := by
      rw [split, settled_concat]
      exact Lexeme.selfEnding_of_endsLine ends
    have fresh : (Cursor.start.after (lexemes above)).Fresh := by
      rw [split, Cursor.after_append]
      exact Cursor.fresh_of_endsLine (lexemes_eq_iff.1 split).1.reads ends _
    exact ⟨lexemes_append settled, offset, fresh.afterDot, fresh.lead⟩

/-- What is seen in the pieces of two texts together. -/
lemma view_joined {α : Type} {view : Piece → List α} {carry : α → α}
    (each : ∀ {cursor cursor' : Cursor}, cursor.Follows above.length cursor' → ∀ lexeme,
      view ⟨lexeme, cursor'⟩ = (view ⟨lexeme, cursor⟩).map carry) (behind : List Char) :
    (Script.ofText (above ++ behind)).scan.pieces.flatMap view
      = (Script.ofText above).scan.pieces.flatMap view
          ++ ((Script.ofText behind).scan.pieces.flatMap view).map carry := by
  obtain ⟨joint, follows⟩ := lexemes_joined whole closed
  rw [pieces_ofText, pieces_ofText, pieces_ofText, joint, placed_append, List.flatMap_append,
    flatMap_placed each follows]

end

/-! ## Lines and columns of two texts together -/

/-- Whole lines below whole lines are whole lines. -/
lemma WholeLines.append_whole {above upper : List Char} (whole : WholeLines above)
    (whole' : WholeLines upper) : WholeLines (above ++ upper) := by
  cases upper with
  | nil => rwa [List.append_nil]
  | cons c rest => exact whole'.append (List.cons_ne_nil _ _) above

/-- What is added behind changes no place above. -/
lemma position_above {above : List Char} {offset : Nat} (bound : offset ≤ above.length)
    (behind : List Char) :
    (Script.ofText (above ++ behind)).position offset = (Script.ofText above).position offset := by
  obtain ⟨upper, row, rest, rfl, rfl, whole, no_newline⟩ := exists_row bound
  rw [List.append_assoc, List.append_assoc, position_of_row whole no_newline,
    position_of_row whole no_newline]

/-- What is added above moves places down by its lines. -/
lemma position_behind {above behind : List Char} (whole : WholeLines above) {offset : Nat}
    (bound : offset ≤ behind.length) :
    (Script.ofText (above ++ behind)).position (offset + above.length)
      = ⟨((Script.ofText behind).position offset).line + above.count '\n',
          ((Script.ofText behind).position offset).column⟩ := by
  obtain ⟨upper, row, rest, rfl, rfl, whole', no_newline⟩ := exists_row bound
  have place : upper.length + row.length + above.length = (above ++ upper).length + row.length := by
    rw [List.length_append]
    omega
  rw [← List.append_assoc, place, position_of_row (whole.append_whole whole') no_newline,
    position_of_row whole' no_newline, List.count_append, Nat.add_comm]

/-- What is added behind changes nothing that is cut out above. -/
lemma slice_above {above : List Char} {stop : Nat} (bound : stop ≤ above.length)
    (behind : List Char) (start : Nat) :
    (Script.ofText (above ++ behind)).slice start stop = (Script.ofText above).slice start stop := by
  have within : stop - start ≤ (above.drop start).length := by
    rw [List.length_drop]
    omega
  exact (congrArg _ List.drop_append).trans (List.take_append_of_le_length within)

/-- What is cut out behind is what was cut out before the text above was added. -/
lemma slice_behind (above behind : List Char) (start stop : Nat) :
    (Script.ofText (above ++ behind)).slice (start + above.length) (stop + above.length)
      = (Script.ofText behind).slice start stop := by
  have dropped : (above ++ behind).drop (start + above.length) = behind.drop start := by
    rw [Nat.add_comm, ← List.drop_drop, List.drop_left]
  have count : stop + above.length - (start + above.length) = stop - start := by omega
  rw [Script.slice, Script.ofText, dropped, count]
  rfl

/-- A part is not empty and lies in the text. -/
lemma bounds_of_mem_highlight {text : List Char} {part : Part}
    (mem : part ∈ (Script.ofText text).highlight) : part.start < part.stop ∧ part.stop ≤ text.length := by
  obtain ⟨piece, piece_mem, _, _, some_text, stop⟩ := exists_piece_of_part mem
  have bound := stop_le_of_mem_placed piece_mem
  rw [Cursor.start_after_offset, ← length_eq_of_lexemes rfl] at bound
  exact ⟨some_text, Nat.le_trans stop bound⟩

/-- What is added behind changes no warning above. -/
lemma warningFor_above {above : List Char} {part : Part}
    (mem : part ∈ (Script.ofText above).highlight) (behind : List Char) :
    (Script.ofText (above ++ behind)).warningFor part = (Script.ofText above).warningFor part := by
  obtain ⟨some_text, stop⟩ := bounds_of_mem_highlight mem
  rw [Script.warningFor, Script.warningFor, slice_above stop, position_above (by omega)]

/-- What is added above lowers a warning by its lines. -/
lemma warningFor_behind {above behind : List Char} (whole : WholeLines above) {part : Part}
    (mem : part ∈ (Script.ofText behind).highlight) :
    (Script.ofText (above ++ behind)).warningFor (part.shifted above.length)
      = ((Script.ofText behind).warningFor part).lowered (above.count '\n') := by
  obtain ⟨some_text, stop⟩ := bounds_of_mem_highlight mem
  have start : part.start ≤ behind.length := by omega
  have line : ((((Script.ofText behind).position part.start).line + above.count '\n' : Nat) : Int) + 1
      = ((Script.ofText behind).position part.start).line + 1 + (above.count '\n' : Nat) := by
    omega
  have length : ((part.stop + above.length : Nat) : Int) - (part.start + above.length : Nat)
      = part.stop - part.start := by
    omega
  rw [Script.warningFor, Part.shifted]
  dsimp only
  rw [slice_behind, position_behind whole start, line, length]
  rfl

/-- The parts, the outline and the warnings of two texts together, if the first one is made of whole
lines and leaves no comment or string open: those of the first text, and then those of the second one,
farther on and on lower lines. -/
theorem highlight_joined {above : List Char} (whole : WholeLines above)
    (closed : ∀ region ∈ (Script.ofText above).scan.regions, region.closed = true)
    (behind : List Char) :
    (Script.ofText (above ++ behind)).highlight
      = (Script.ofText above).highlight
          ++ (Script.ofText behind).highlight.map (Part.shifted above.length) ∧
    (Script.ofText (above ++ behind)).outline.functions
      = (Script.ofText above).outline.functions
          ++ (Script.ofText behind).outline.functions.map (OutlineEntry.shifted above.length) ∧
    (Script.ofText (above ++ behind)).outline.labels
      = (Script.ofText above).outline.labels
          ++ (Script.ofText behind).outline.labels.map (OutlineEntry.shifted above.length) ∧
    (Script.ofText (above ++ behind)).warnings
      = (Script.ofText above).warnings
          ++ (Script.ofText behind).warnings.map (Warning.lowered (above.count '\n')) := by
  have parts : (Script.ofText (above ++ behind)).highlight = _ :=
    view_joined whole closed Cursor.Follows.parts behind
  refine ⟨parts, ?_, ?_, ?_⟩
  · rw [outline_ofText, outline_ofText, outline_ofText]
    exact view_joined whole closed Cursor.Follows.declared behind
  · rw [outline_ofText, outline_ofText, outline_ofText]
    exact view_joined whole closed Cursor.Follows.label behind
  · rw [Script.warnings, parts, List.filter_append, List.map_append, List.filter_map, List.map_map,
      Script.warnings, Script.warnings, List.map_map]
    refine congrArg₂ (· ++ ·) ?_ ?_
    · apply List.map_congr_left
      intro part mem
      exact warningFor_above (List.mem_filter.1 mem).1 behind
    · apply List.map_congr_left
      intro part mem
      exact warningFor_behind whole (List.mem_filter.1 mem).1

/-- Lines that leave a group open. -/
def openGroup : List Char :=
  "Function F (\n@Dates ; note\n".toList

/-- A text that closes a group. -/
def closedGroup : List Char :=
  "Function G ) :done\n @Nix".toList

/-- An open group does not reach the parts and names of the text behind it. -/
theorem highlight_of_groups :
    WholeLines openGroup ∧
    (∀ region ∈ (Script.ofText openGroup).scan.regions, region.closed = true) ∧
    (Script.ofText (openGroup ++ closedGroup)).highlight
      = (Script.ofText openGroup).highlight
          ++ (Script.ofText closedGroup).highlight.map (Part.shifted 27) ∧
    (Script.ofText (openGroup ++ closedGroup)).outline.functions = [⟨['F'], 9⟩, ⟨['G'], 36⟩] ∧
    (Script.ofText (openGroup ++ closedGroup)).outline.labels = [⟨"done".toList, 40⟩] ∧
    (Script.ofText (openGroup ++ closedGroup)).warnings
      = [⟨"characters 's' after macro are ignored", 2, 6, 1⟩,
          ⟨"unknown macro '@Nix' evaluates to 0", 4, 2, 4⟩] := by
  have whole : WholeLines openGroup := by
    intro c mem
    have last : openGroup.getLast? = some '\n' := by decide
    exact (Option.some.inj (last.symm.trans mem)).symm
  have closed : ∀ region ∈ (Script.ofText openGroup).scan.regions, region.closed = true := by
    have every : (Script.ofText openGroup).scan.regions.all Region.closed = true := by decide +kernel
    exact List.all_eq_true.1 every
  obtain ⟨highlight, functions, labels, warnings⟩ := highlight_joined whole closed closedGroup
  refine ⟨whole, closed, highlight, ?_, ?_, ?_⟩
  · rw [functions]
    decide +kernel
  · rw [labels]
    decide +kernel
  · rw [warnings]
    decide +kernel

end KixScript

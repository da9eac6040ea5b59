import KixScript.Proofs.Atoms
import KixScript.Proofs.Nesting
import KixScript.Proofs.Views
import Mathlib.Data.List.Forall2

/-!
# Moved offsets

Where one stretch of a text takes the place of another, what stands behind it moves (`Shift`). If
every piece stays what it is (`Piece.Moved`), then what is found in the pieces moves with them. The
queries about an offset compare it with the offsets of what was found, and a shift keeps the order of
all offsets outside of the stretch (`Shift.move_lt_move_iff`). So they find what they found before,
in its new place (`Shift.Carries.sameUpTo`).
-/

namespace KixScript

/-- One stretch of a text takes the place of another. Both begin at `start`; the old one ends at
`old`, and the new one at `new`. -/
structure Shift where
  start : Nat
  old : Nat
  new : Nat
  start_lt_old : start < old
  start_lt_new : start < new

namespace Shift

/-- Where an offset moves. -/
def move (shift : Shift) (offset : Int) : Int :=
  if offset < shift.old then offset else offset - shift.old + shift.new

/-- Where an offset in the text moves. -/
def moveNat (shift : Shift) (offset : Nat) : Nat :=
  if offset < shift.old then offset else offset - shift.old + shift.new

/-- The offset is not inside of the stretch. -/
def Outside (shift : Shift) (offset : Int) : Prop :=
  offset ≤ shift.start ∨ shift.old ≤ offset

/-- A stretch in its new place. -/
def span (shift : Shift) (span : Span) : Span :=
  ⟨shift.moveNat span.start, shift.moveNat span.stop⟩

/-- A comment or string in its new place. -/
def region (shift : Shift) (region : Region) : Region :=
  { region with start := shift.moveNat region.start, stop := shift.moveNat region.stop }

/-- A word in its new place. -/
def word (shift : Shift) (word : Word) : Word :=
  { word with start := shift.moveNat word.start, stop := shift.moveNat word.stop }

/-- An atom in its new place, with the same partner. -/
def atom (shift : Shift) : Atom → Atom
  | .word word => .word (shift.word word)
  | .opening start partner => .opening (shift.moveNat start) partner
  | .closing start partner => .closing (shift.moveNat start) partner

/-- A classified part in its new place. -/
def part (shift : Shift) (part : Part) : Part :=
  { part with start := shift.moveNat part.start, stop := shift.moveNat part.stop }

/-- A block keyword in its new place. -/
def occurrence (shift : Shift) (found : Occurrence) : Occurrence :=
  { found with start := shift.moveNat found.start, stop := shift.moveNat found.stop }

/-- A cursor in its new place. -/
def cursor (shift : Shift) (cursor : Cursor) : Cursor :=
  { cursor with offset := shift.moveNat cursor.offset }

section
variable {shift : Shift}

/-- Places are moved alike as natural numbers and as integers. -/
lemma natCast_moveNat (offset : Nat) : (shift.moveNat offset : Int) = shift.move offset := by
  unfold moveNat move
  split <;> split <;> omega

/-- What lies before the shift stays. -/
lemma moveNat_of_lt {offset : Nat} (before : offset < shift.old) : shift.moveNat offset = offset :=
  if_pos before

/-- The old end moves to the new one. -/
lemma moveNat_old (shift : Shift) : shift.moveNat shift.old = shift.new := by
  rw [moveNat, if_neg (Nat.lt_irrefl _), Nat.sub_self, Nat.zero_add]

/-- A cursor before the shift stays. -/
lemma cursor_of_lt {cursor : Cursor} (before : cursor.offset < shift.old) :
    shift.cursor cursor = cursor := by
  rw [Shift.cursor, moveNat_of_lt before]

/-- Offsets behind the stretch keep their distance. -/
lemma moveNat_add {offset : Nat} (behind : shift.old ≤ offset) (count : Nat) :
    shift.moveNat (offset + count) = shift.moveNat offset + count := by
  rw [moveNat, moveNat, if_neg (by omega), if_neg (by omega)]
  omega

/-- Behind the shift, a moved cursor advances as the cursor does. -/
lemma cursor_advance {cursor : Cursor} (behind : shift.old ≤ cursor.offset) (lexeme : Lexeme) :
    (shift.cursor cursor).advance lexeme = shift.cursor (cursor.advance lexeme) := by
  have lead : (shift.cursor cursor).leadAfter lexeme = cursor.leadAfter lexeme := by
    cases lexeme <;> rfl
  rw [Cursor.advance, lead, Cursor.advance, Shift.cursor, Shift.cursor, moveNat_add behind]

/-- Behind the shift, lexemes lead a moved cursor to the moved cursor. -/
lemma cursor_after {cursor : Cursor} (behind : shift.old ≤ cursor.offset) (lexemes : List Lexeme) :
    (shift.cursor cursor).after lexemes = shift.cursor (cursor.after lexemes) := by
  induction lexemes generalizing cursor with
  | nil => rfl
  | cons lexeme rest ih =>
    rw [Cursor.after_cons, Cursor.after_cons, cursor_advance behind]
    exact ih (Nat.le_add_right_of_le behind)

/-- Offsets outside of the shift keep their strict order. -/
lemma move_lt_move_iff {offset offset' : Int} (outside : shift.Outside offset)
    (outside' : shift.Outside offset') : shift.move offset < shift.move offset' ↔ offset < offset' := by
  have lt_old := shift.start_lt_old
  have lt_new := shift.start_lt_new
  unfold Outside at outside outside'
  unfold move
  split <;> split <;> omega

/-- Offsets outside of the shift keep their order. -/
lemma move_le_move_iff {offset offset' : Int} (outside : shift.Outside offset)
    (outside' : shift.Outside offset') : shift.move offset ≤ shift.move offset' ↔ offset ≤ offset' := by
  rw [← Int.not_lt, move_lt_move_iff outside' outside, Int.not_lt]

/-- The beginning of the text stays where it is. -/
lemma max_move {offset : Int} (outside : shift.Outside offset) :
    max 0 (shift.move offset) = shift.move (max 0 offset) ∧ shift.Outside (max 0 offset) := by
  have lt_old := shift.start_lt_old
  unfold Outside at outside ⊢
  unfold move
  split <;> split <;> omega

end

end Shift

/-- A piece in its new place. It is the same and moves as a whole, or it is a comment or string that
holds another text. -/
inductive Piece.Moved (shift : Shift) : Piece → Piece → Prop where
  | same {lexeme cursor} :
    (∀ count ≤ lexeme.length,
      shift.moveNat (cursor.offset + count) = shift.moveNat cursor.offset + count) →
    Moved shift ⟨lexeme, cursor⟩ ⟨lexeme, shift.cursor cursor⟩
  | refilled {kind body body' closed cursor} :
    shift.moveNat (cursor.offset + body.length) = shift.moveNat cursor.offset + body'.length →
    Moved shift ⟨.region kind body closed, cursor⟩ ⟨.region kind body' closed, shift.cursor cursor⟩

namespace Piece.Moved
variable {shift : Shift} {piece piece' : Piece}

/-- A moved piece starts at the moved place. -/
lemma start_eq (moved : piece.Moved shift piece') : piece'.start = shift.moveNat piece.start := by
  cases moved <;> rfl

/-- A moved piece stops at the moved place. -/
lemma stop_eq (moved : piece.Moved shift piece') : piece'.stop = shift.moveNat piece.stop := by
  cases moved with
  | same steady => exact (steady _ (Nat.le_refl _)).symm
  | refilled stop => exact stop.symm

/-- A moved piece is the moved comment or string. -/
lemma region? (moved : piece.Moved shift piece') :
    piece'.region? = piece.region?.map shift.region := by
  have start := moved.start_eq
  have stop := moved.stop_eq
  cases moved with
  | @same lexeme _ _ =>
    cases lexeme with
    | region kind body closed =>
      simp only [Piece.region?, Option.map_some, start, stop]
      rfl
    | _ => rfl
  | refilled _ =>
    simp only [Piece.region?, Option.map_some, start, stop]
    rfl

/-- A moved piece is the moved run of punctuation. -/
lemma punctuation? (moved : piece.Moved shift piece') :
    piece'.punctuation? = piece.punctuation?.map shift.span := by
  have start := moved.start_eq
  have stop := moved.stop_eq
  cases moved with
  | @same lexeme _ _ =>
    cases lexeme with
    | punctuation run =>
      simp only [Piece.punctuation?, Option.map_some, start, stop]
      rfl
    | _ => rfl
  | refilled _ => rfl

/-- A moved piece is the moved atom. -/
lemma atom? (moved : piece.Moved shift piece') : piece'.atom? = piece.atom?.map shift.atom := by
  have start := moved.start_eq
  have stop := moved.stop_eq
  cases moved with
  | @same lexeme _ _ =>
    cases lexeme with
    | word text =>
      simp only [Piece.atom?, Piece.word?, Option.map_some, start, stop]
      rfl
    | _ => rfl
  | refilled _ => rfl

/-- A moved piece has the same fragments. -/
lemma fragments_eq (moved : piece.Moved shift piece') : piece'.fragments = piece.fragments := by
  cases moved with
  | @same lexeme _ _ => cases lexeme <;> rfl
  | refilled _ => rfl

/-- A moved piece has the moved parts. -/
lemma parts (moved : piece.Moved shift piece') : piece'.parts = piece.parts.map shift.part := by
  cases moved with
  | @same lexeme cursor steady =>
    rw [Piece.parts, Piece.parts, fragments_eq (.same steady)]
    apply partsFrom_map shift.moveNat
    intro count bound
    rcases Piece.textOf_fragments ⟨lexeme, cursor⟩ with nothing | whole
    · rw [nothing] at bound
      exact steady count (Nat.le_trans bound (Nat.zero_le _))
    · rw [whole] at bound
      exact steady count bound
  | refilled _ => rfl

/-- Each piece is moved to some piece. -/
lemma exists_of_mem {pieces pieces' : List Piece}
    (moved : List.Forall₂ (Piece.Moved shift) pieces pieces') (mem : piece ∈ pieces) :
    ∃ piece', Piece.Moved shift piece piece' := by
  induction moved with
  | nil => cases mem
  | @cons _ piece' _ _ here _ ih =>
    rcases List.mem_cons.1 mem with rfl | mem
    · exact ⟨piece', here⟩
    · exact ih mem

/-- What stands before the end of the stretch keeps its place. -/
lemma of_lt (before : piece.stop < shift.old) : piece.Moved shift piece := by
  obtain ⟨lexeme, cursor⟩ := piece
  have bound : cursor.offset + lexeme.length < shift.old := before
  have moved : Moved shift ⟨lexeme, cursor⟩ ⟨lexeme, shift.cursor cursor⟩ := by
    refine .same fun count within => ?_
    rw [Shift.moveNat_of_lt (by omega), Shift.moveNat_of_lt (by omega)]
  rwa [Shift.cursor_of_lt (by omega)] at moved

/-- What stands behind the stretch moves as a whole. -/
lemma placed {cursor : Cursor} (behind : shift.old ≤ cursor.offset) (lexemes : List Lexeme) :
    List.Forall₂ (Piece.Moved shift) (KixScript.placed cursor lexemes)
      (KixScript.placed (shift.cursor cursor) lexemes) := by
  induction lexemes generalizing cursor with
  | nil => exact .nil
  | cons lexeme rest ih =>
    rw [placed_cons, placed_cons, Shift.cursor_advance behind]
    exact .cons (.same fun count _ => Shift.moveNat_add behind count)
      (ih (Nat.le_add_right_of_le behind))

/-- What is seen in each piece moves with it, and so does what is seen in all of them. -/
lemma flatMap {α : Type} {view : Piece → List α} {carry : α → α}
    (each : ∀ {piece piece'}, Piece.Moved shift piece piece' → view piece' = (view piece).map carry)
    {pieces pieces' : List Piece} (moved : List.Forall₂ (Piece.Moved shift) pieces pieces') :
    pieces'.flatMap view = (pieces.flatMap view).map carry := by
  induction moved with
  | nil => rfl
  | cons here _ ih => rw [List.flatMap_cons, List.flatMap_cons, List.map_append, each here, ih]

/-- What each piece carries along, the list of pieces does. -/
lemma filterMap {α : Type} {view : Piece → Option α} {carry : α → α}
    (each : ∀ {piece piece'}, Piece.Moved shift piece piece' → view piece' = (view piece).map carry)
    {pieces pieces' : List Piece} (moved : List.Forall₂ (Piece.Moved shift) pieces pieces') :
    pieces'.filterMap view = (pieces.filterMap view).map carry := by
  rw [List.filterMap_eq_flatMap_toList, List.filterMap_eq_flatMap_toList]
  apply flatMap _ moved
  intro piece piece' here
  rw [each here, Option.toList_map]

end Piece.Moved

namespace Shift
variable {shift : Shift}

/-- To move an atom is to change its word and its place. -/
lemma atom_eq_changed : shift.atom = Atom.changed shift.word shift.moveNat := by
  funext atom
  cases atom <;> rfl

/-- A moved atom starts at the moved place. -/
lemma start_atom (atom : Atom) : (shift.atom atom).start = shift.moveNat atom.start := by
  cases atom <;> rfl

/-- A moved atom is the moved keyword. -/
lemma occurrence?_atom (atom : Atom) :
    (shift.atom atom).occurrence? = atom.occurrence?.map shift.occurrence := by
  cases atom with
  | word word =>
    cases keyword : word.keyword with
    | none => simp [Shift.atom, Shift.word, Atom.occurrence?, keyword]
    | some found => simp [Shift.atom, Shift.word, Atom.occurrence?, keyword, Shift.occurrence]
  | _ => rfl

/-- Moving an atom and giving it a partner can be done in either order. -/
lemma pairedBy_atom (pairs : List (Nat × Nat)) (index : Nat) (atom : Atom) :
    (shift.atom atom).pairedBy pairs index = shift.atom (atom.pairedBy pairs index) := by
  rw [atom_eq_changed]
  exact atom.pairedBy_changed _ _ pairs index

/-- Moved atoms have the same partners. -/
lemma pairAtoms_map (atoms : List Atom) :
    pairAtoms (atoms.map shift.atom) = (pairAtoms atoms).map shift.atom := by
  rw [atom_eq_changed]
  exact pairAtoms_changed _ _ atoms

/-- Moved keywords are met on the way back. -/
lemma keywordsBack_map (atoms : List Atom) :
    keywordsBack (atoms.map shift.atom) = (keywordsBack atoms).map shift.occurrence := by
  rw [atom_eq_changed]
  apply keywordsBack_changed
  rw [← atom_eq_changed]
  exact occurrence?_atom

/-- Among moved keywords, the moved opener is found. -/
lemma findOpener_map (seeded : Bool) (waiting : List Keyword) (seen : List Occurrence) :
    findOpener seeded waiting (seen.map shift.occurrence)
      = (findOpener seeded waiting seen).map shift.occurrence := by
  have same : (seen.map shift.occurrence).map id = seen.map shift.occurrence := List.map_id _
  have finds := findOpener_views same Occurrence.keyword (fun _ => rfl) (fun _ => rfl) seeded waiting
  rwa [Option.map_id_fun, id] at finds

end Shift

/-- Two scripts look the same, apart from the offsets, which a shift takes from one to the other.
Outside of the stretch, the queries about blocks give the same answers. -/
structure Script.SameUpTo (script script' : Script) (shift : Shift) : Prop where
  regions : script'.scan.regions = script.scan.regions.map shift.region
  atoms : script'.scan.atoms = script.scan.atoms.map shift.atom
  punctuation : script'.scan.punctuation = script.scan.punctuation.map shift.span
  punctuationTexts : script'.punctuationTexts = script.punctuationTexts
  highlight : script'.highlight = script.highlight.map shift.part
  partTexts : script'.partTexts = script.partTexts
  enclosing : ∀ offset, shift.Outside offset →
    script'.enclosingOpener (shift.move offset) = (script.enclosingOpener offset).map shift.occurrence
  matching : ∀ offset, shift.Outside offset →
    script'.matchingOpener (shift.move offset) = (script.matchingOpener offset).map shift.occurrence

/-- The pieces of a text are those of another one in their new places. None of them begins or ends
inside of the stretch. -/
structure Shift.Carries (shift : Shift) (text text' : List Char) : Prop where
  pieces : List.Forall₂ (Piece.Moved shift) (Script.ofText text).scan.pieces
    (Script.ofText text').scan.pieces
  outside : ∀ piece ∈ (Script.ofText text).scan.pieces,
    shift.Outside piece.start ∧ shift.Outside piece.stop
  within : shift.old ≤ text.length
  length : text'.length = shift.moveNat text.length

section
variable {text : List Char} {piece : Piece}

/-- The comment or string around an offset is one of the script. -/
lemma mem_regions_of_contextAt {offset : Int} {region : Region}
    (around : ((Script.ofText text).contextAt offset).region = some region) :
    region ∈ (Script.ofText text).scan.regions := by
  rw [Script.contextAt] at around
  dsimp only at around
  split at around
  · have last := (Option.filter_eq_some_iff.1 around).1
    exact (List.mem_filter.1 (List.mem_of_getLast? last)).1
  · cases around

/-- The text of a piece is cut out where it stands. -/
lemma slice_piece (mem : piece ∈ (Script.ofText text).scan.pieces) :
    (Script.ofText text).slice piece.start piece.stop = piece.lexeme.text := by
  obtain ⟨before, behind, joint, place⟩ := exists_of_mem_placed mem
  rw [Piece.start, Piece.stop, place]
  exact slice_joint joint

/-- The runs of punctuation, told by their pieces. -/
lemma punctuationTexts_pieces (text : List Char) :
    (Script.ofText text).punctuationTexts
      = (Script.ofText text).scan.pieces.filterMap fun piece =>
          piece.punctuation?.map fun _ => piece.lexeme.text := by
  have spans : (Script.ofText text).scan.punctuation
      = (Script.ofText text).scan.pieces.filterMap Piece.punctuation? := rfl
  rw [Script.punctuationTexts, spans, List.map_filterMap]
  apply List.filterMap_congr
  intro piece mem
  have slice := slice_piece mem
  obtain ⟨lexeme, cursor⟩ := piece
  cases lexeme with
  | punctuation run => exact congrArg some slice
  | _ => rfl

/-- Without their marks, the fragments are left. -/
lemma fst_markedFrom (line : Nat) (fragments : List Fragment) :
    (markedFrom line fragments).map Prod.fst = fragments := by
  induction fragments generalizing line with
  | nil => rfl
  | cons fragment rest ih => rw [markedFrom, List.map_cons, ih]

/-- The parts of a piece are its fragments. -/
lemma mark_parts (mem : piece ∈ (Script.ofText text).scan.pieces) :
    (piece.parts.map (Script.ofText text).mark).map Prod.fst = piece.fragments := by
  obtain ⟨before, behind, joint, place⟩ := exists_of_mem_placed mem
  rcases piece.textOf_fragments with nothing | whole
  · rw [Piece.parts, nothing]
    rfl
  · have parts := text_of_joint joint
    rw [← whole] at parts
    rw [Piece.parts, Piece.start, place, Cursor.start_after_offset, mark_partsFrom parts,
      fst_markedFrom]

/-- The texts of the parts, told by their pieces. -/
lemma partTexts_pieces (text : List Char) :
    (Script.ofText text).partTexts
      = (Script.ofText text).scan.pieces.flatMap fun piece =>
          piece.fragments.map fun fragment =>
            (fragment.text, fragment.tokenClass, fragment.role, fragment.role.warns) := by
  rw [partTexts_eq, Script.highlight, List.map_flatMap, List.map_flatMap]
  apply List.flatMap_congr
  intro piece mem
  rw [← mark_parts mem, List.map_map, List.map_map, List.map_map]
  rfl

end

namespace Shift.Carries
variable {shift : Shift} {text text' : List Char} (carries : shift.Carries text text')
include carries

/-- The comments and strings move. -/
lemma regions :
    (Script.ofText text').scan.regions = (Script.ofText text).scan.regions.map shift.region :=
  Piece.Moved.filterMap Piece.Moved.region? carries.pieces

/-- The atoms move. -/
lemma atoms : (Script.ofText text').scan.atoms = (Script.ofText text).scan.atoms.map shift.atom := by
  have loose : looseAtoms .start (lexemes text')
      = (looseAtoms .start (lexemes text)).map shift.atom :=
    Piece.Moved.filterMap Piece.Moved.atom? carries.pieces
  rw [atoms_ofText, atoms_ofText, loose, pairAtoms_map]

/-- The runs of punctuation keep their texts. -/
lemma punctuationTexts :
    (Script.ofText text').punctuationTexts = (Script.ofText text).punctuationTexts := by
  rw [punctuationTexts_pieces, punctuationTexts_pieces]
  refine (Piece.Moved.filterMap ?_ carries.pieces).trans (List.map_id _)
  intro piece piece' moved
  rw [Option.map_id_fun, id]
  cases moved with
  | @same lexeme _ _ => cases lexeme <;> rfl
  | refilled _ => rfl

/-- The parts keep their texts. -/
lemma partTexts : (Script.ofText text').partTexts = (Script.ofText text).partTexts := by
  rw [partTexts_pieces, partTexts_pieces]
  refine (Piece.Moved.flatMap ?_ carries.pieces).trans (List.map_id _)
  intro piece piece' moved
  rw [List.map_id, moved.fragments_eq]

/-- Comments and strings start and stop outside of the shift. -/
lemma region_outside {region : Region} (mem : region ∈ (Script.ofText text).scan.regions) :
    shift.Outside region.start ∧ shift.Outside region.stop := by
  obtain ⟨piece, mem, found⟩ := List.mem_filterMap.1 mem
  obtain ⟨_, _, start, stop⟩ := Piece.region?_eq_some found
  rw [start, stop]
  exact carries.outside piece mem

/-- Atoms start and stop outside of the shift. -/
lemma atom_outside {atom : Atom} (mem : atom ∈ (Script.ofText text).scan.atoms) :
    shift.Outside atom.start ∧ shift.Outside atom.stop ∧
      (shift.atom atom).stop = shift.moveNat atom.stop := by
  rw [atoms_ofText, pairAtoms] at mem
  obtain ⟨index, bound, rfl⟩ := List.mem_mapIdx.1 mem
  obtain ⟨piece, mem, found⟩ := List.mem_filterMap.1 (List.getElem_mem bound)
  obtain ⟨piece', moved⟩ := Piece.Moved.exists_of_mem carries.pieces mem
  have found' := moved.atom?
  rw [found] at found'
  have stop' := (Piece.span_of_atom? found').2
  obtain ⟨start, stop⟩ := Piece.span_of_atom? found
  obtain ⟨start_outside, stop_outside⟩ := carries.outside piece mem
  rw [← pairedBy_atom, Atom.start_pairedBy, Atom.stop_pairedBy, Atom.stop_pairedBy, stop', start,
    stop]
  exact ⟨start_outside, stop_outside, moved.stop_eq⟩

/-- The atoms before a place are those before its new place, if the place stands among them as
before. -/
lemma atomsBefore {place place' : Int}
    (order : ∀ offset, shift.Outside offset → (shift.move offset < place' ↔ offset < place)) :
    (Script.ofText text').atomsBefore place'
      = ((Script.ofText text).atomsBefore place).map shift.atom := by
  rw [Script.atomsBefore, Script.atomsBefore, carries.atoms, List.filter_map]
  congr 1
  apply List.filter_congr
  intro atom mem
  rw [Function.comp, start_atom, natCast_moveNat, decide_eq_decide]
  exact order _ (carries.atom_outside mem).1

/-- A moved comment or string contains the moved offsets. -/
lemma contains {region : Region} (mem : region ∈ (Script.ofText text).scan.regions) {offset : Int}
    (outside : shift.Outside offset) :
    (shift.region region).contains (shift.move offset) = region.contains offset := by
  obtain ⟨start, stop⟩ := carries.region_outside mem
  have starts := move_lt_move_iff start outside
  have stops := move_lt_move_iff outside stop
  have stops' := move_le_move_iff outside stop
  rw [← natCast_moveNat] at starts stops stops'
  simp only [Region.contains, Shift.region, starts, stops, stops']

/-- The comment or string at a moved offset is the moved one. -/
lemma regionAt {offset : Int} (outside : shift.Outside offset) :
    (Script.ofText text').regionAt (shift.move offset)
      = ((Script.ofText text).regionAt offset).map shift.region := by
  have before : (Script.ofText text').scan.regions.filter
        (fun region => region.start < shift.move offset)
      = ((Script.ofText text).scan.regions.filter (fun region => region.start < offset)).map
          shift.region := by
    rw [carries.regions, List.filter_map]
    congr 1
    apply List.filter_congr
    intro region mem
    rw [Function.comp, Shift.region, natCast_moveNat, decide_eq_decide]
    exact move_lt_move_iff (carries.region_outside mem).1 outside
  rw [Script.regionAt, Script.regionAt, before, List.getLast?_map]
  cases last : ((Script.ofText text).scan.regions.filter
      (fun region => region.start < offset)).getLast? with
  | none => rfl
  | some region =>
    have mem := (List.mem_filter.1 (List.mem_of_getLast? last)).1
    rw [Option.map_some, Option.filter_some, Option.filter_some, carries.contains mem outside]
    split <;> rfl

/-- The context of a moved offset is the moved one. -/
lemma contextAt {offset : Int} (outside : shift.Outside offset) :
    ((Script.ofText text').contextAt (shift.move offset)).region
      = ((Script.ofText text).contextAt offset).region.map shift.region := by
  have reaches : shift.move offset ≤ (Script.ofText text').length
      ↔ offset ≤ (Script.ofText text).length := by
    rw [length_ofText, length_ofText, carries.length, natCast_moveNat]
    exact move_le_move_iff outside (.inr (Int.ofNat_le.2 carries.within))
  obtain ⟨moved, outside'⟩ := max_move outside
  simp only [Script.contextAt, moved, carries.regionAt outside']
  by_cases inside : offset ≤ (Script.ofText text).length
  · rw [if_pos inside, if_pos (reaches.2 inside)]
  · rw [if_neg inside, if_neg (mt reaches.1 inside)]
    rfl

/-- The search for the block around an offset begins at the same place. -/
lemma searchPlace {offset : Int} (outside : shift.Outside offset) :
    (Script.ofText text').searchPlace (shift.move offset)
        = shift.move ((Script.ofText text).searchPlace offset) ∧
      shift.Outside ((Script.ofText text).searchPlace offset) := by
  have same := carries.contextAt outside
  rw [Script.searchPlace, Script.searchPlace, Context.regionStart, Context.regionStart, same]
  cases around : ((Script.ofText text).contextAt offset).region with
  | none => exact ⟨rfl, outside⟩
  | some region =>
    exact ⟨natCast_moveNat _, (carries.region_outside (mem_regions_of_contextAt around)).1⟩

/-- The keywords met on the way back from a moved place are moved. -/
lemma keywordsBack {place : Int} (outside : shift.Outside place) :
    KixScript.keywordsBack ((Script.ofText text').atomsBefore (shift.move place))
      = (KixScript.keywordsBack ((Script.ofText text).atomsBefore place)).map shift.occurrence := by
  rw [carries.atomsBefore fun offset outside' => move_lt_move_iff outside' outside,
    keywordsBack_map]

/-- The innermost opener around a moved offset is the moved one. -/
lemma enclosingOpener {offset : Int} (outside : shift.Outside offset) :
    (Script.ofText text').enclosingOpener (shift.move offset)
      = ((Script.ofText text).enclosingOpener offset).map shift.occurrence := by
  obtain ⟨place, outside'⟩ := carries.searchPlace outside
  calc (Script.ofText text').enclosingOpener (shift.move offset)
      = findOpener false [] (KixScript.keywordsBack
          ((Script.ofText text').atomsBefore
            ((Script.ofText text').searchPlace (shift.move offset)))) := rfl
    _ = findOpener false [] ((KixScript.keywordsBack
          ((Script.ofText text).atomsBefore ((Script.ofText text).searchPlace offset))).map
            shift.occurrence) := by
        rw [place, carries.keywordsBack outside']
    _ = ((Script.ofText text).enclosingOpener offset).map shift.occurrence := findOpener_map _ _ _

/-- The keyword at a moved offset is the moved one. -/
lemma keywordAt {offset : Int} (outside : shift.Outside offset) :
    (Script.ofText text').keywordAt (shift.move offset)
      = ((Script.ofText text).keywordAt offset).map shift.occurrence := by
  have before : (Script.ofText text').atomsBefore (shift.move offset + 1)
      = ((Script.ofText text).atomsBefore (offset + 1)).map shift.atom := by
    apply carries.atomsBefore
    intro offset' outside'
    rw [Int.lt_add_one_iff, Int.lt_add_one_iff]
    exact move_le_move_iff outside' outside
  rw [Script.keywordAt, Script.keywordAt, before, List.getLast?_map]
  cases last : ((Script.ofText text).atomsBefore (offset + 1)).getLast? with
  | none => rfl
  | some atom =>
    have mem := (List.mem_filter.1 (List.mem_of_getLast? last)).1
    obtain ⟨_, stop_outside, stop⟩ := carries.atom_outside mem
    have ends : ((shift.atom atom).stop : Int) ≤ shift.move offset ↔ (atom.stop : Int) ≤ offset := by
      rw [stop, natCast_moveNat]
      exact move_le_move_iff stop_outside outside
    simp only [Option.map_some, ends, occurrence?_atom]
    split <;> rfl

/-- A keyword starts outside of the shift. -/
lemma keywordAt_outside {offset : Int} {found : Occurrence}
    (here : (Script.ofText text).keywordAt offset = some found) : shift.Outside found.start := by
  obtain ⟨atom, mem, is_keyword, _⟩ := exists_atom_of_keywordAt here
  rw [(Atom.span_of_occurrence? is_keyword).1]
  exact (carries.atom_outside mem).1

/-- The opener that a moved offset is matched with is the moved one. -/
lemma matchingOpener {offset : Int} (outside : shift.Outside offset) :
    (Script.ofText text').matchingOpener (shift.move offset)
      = ((Script.ofText text).matchingOpener offset).map shift.occurrence := by
  rw [Script.matchingOpener, Script.matchingOpener, carries.keywordAt outside]
  cases here : (Script.ofText text).keywordAt offset with
  | none => rfl
  | some found =>
    have back := carries.keywordsBack (carries.keywordAt_outside here)
    rw [← natCast_moveNat] at back
    dsimp only [Option.map_some, Shift.occurrence]
    split
    · rw [back]
      exact findOpener_map _ _ _
    · rfl

/-- All that is asked of the two texts is the same up to the shift. -/
lemma sameUpTo : (Script.ofText text).SameUpTo (Script.ofText text') shift where
  regions := carries.regions
  atoms := carries.atoms
  punctuation := Piece.Moved.filterMap Piece.Moved.punctuation? carries.pieces
  punctuationTexts := carries.punctuationTexts
  highlight := Piece.Moved.flatMap Piece.Moved.parts carries.pieces
  partTexts := carries.partTexts
  enclosing := fun _ outside => carries.enclosingOpener outside
  matching := fun _ outside => carries.matchingOpener outside

end Shift.Carries

section
variable {shift : Shift} {kind : RegionKind} {body body' : List Char} {closed : Bool}

/-- Behind a comment or string, only its last character is known. -/
lemma Shift.advance_region {cursor : Cursor} (last : body'.getLast? = body.getLast?)
    (stop : shift.moveNat (cursor.offset + body.length)
      = shift.moveNat cursor.offset + body'.length) :
    (shift.cursor cursor).advance (.region kind body' closed)
      = shift.cursor (cursor.advance (.region kind body closed)) := by
  simp only [Cursor.advance, Shift.cursor, Lexeme.length, Lexeme.text, Cursor.depthAfter,
    Cursor.leadAfter, last, stop]

section
variable {text text' : List Char} {before behind : List Lexeme}
  (joint : lexemes text = before ++ .region kind body closed :: behind)
  (joint' : lexemes text' = before ++ .region kind body' closed :: behind)
  (start : shift.start = (written before).length)
  (old : shift.old = (written before).length + body.length)
  (new : shift.new = (written before).length + body'.length)
include joint start old

/-- No piece begins or ends inside of a comment or string. -/
lemma Shift.outside_of_joint {piece : Piece} (mem : piece ∈ (Script.ofText text).scan.pieces) :
    shift.Outside piece.start ∧ shift.Outside piece.stop := by
  have place := Cursor.start_after_offset before
  rw [pieces_ofText, joint, placed_append, placed_cons] at mem
  have start_le_stop : piece.start ≤ piece.stop := Nat.le_add_right _ _
  unfold Outside
  rcases List.mem_append.1 mem with mem | mem
  · have stop := stop_le_of_mem_placed mem
    omega
  rcases List.mem_cons.1 mem with rfl | mem
  · have here : Piece.start ⟨.region kind body closed, Cursor.start.after before⟩
        = (written before).length := place
    have there : Piece.stop ⟨.region kind body closed, Cursor.start.after before⟩
        = (written before).length + body.length := by
      rw [Piece.stop, place]
      rfl
    omega
  · have behind := le_start_of_mem_placed mem
    rw [Cursor.offset_advance, place, Lexeme.text] at behind
    omega

include joint' new

/-- Where a comment or string holds another text with the same last character, the other pieces stay
what they are. -/
lemma Shift.carries_of_joint (last : body'.getLast? = body.getLast?) : shift.Carries text text' := by
  have start_lt_old := shift.start_lt_old
  have place := Cursor.start_after_offset before
  have stays : shift.cursor (Cursor.start.after before) = Cursor.start.after before :=
    cursor_of_lt (by omega)
  have refilled : shift.moveNat ((Cursor.start.after before).offset + body.length)
      = shift.moveNat (Cursor.start.after before).offset + body'.length := by
    rw [place, ← old, moveNat_old, moveNat_of_lt (by omega), new]
  have length := length_eq_of_lexemes joint
  have length' := length_eq_of_lexemes joint'
  rw [written_append, written_cons, Lexeme.text, List.length_append, List.length_append,
    ← Nat.add_assoc] at length length'
  rw [← old] at length
  rw [← new] at length'
  refine ⟨?_, fun piece mem => outside_of_joint joint start old mem, ?_, ?_⟩
  · rw [pieces_ofText, pieces_ofText, joint, joint', placed_append, placed_append, placed_cons,
      placed_cons]
    refine List.rel_append (List.forall₂_same.2 ?_) (.cons ?_ ?_)
    · intro piece mem
      have bound := stop_le_of_mem_placed mem
      exact .of_lt (by omega)
    · have moved := @Piece.Moved.refilled shift kind body body' closed _ refilled
      rwa [stays] at moved
    · have advance := @advance_region shift kind body body' closed _ last refilled
      rw [stays] at advance
      rw [advance]
      apply Piece.Moved.placed
      rw [Cursor.offset_advance, place, old]
      exact Nat.le_refl _
  · omega
  · rw [length, moveNat_add (Nat.le_refl _), moveNat_old, length']

end

end

end KixScript

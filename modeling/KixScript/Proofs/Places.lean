import KixScript.Proofs.Stream
import KixScript.Script.Context

/-!
# Places in a stream

Where the lexemes of a text stand, and what is found at an offset. A text whose lexemes are
`before ++ behind` has a *joint* at the end of `before`. The queries about a joint see `before` and
`behind` only (`contextAt_joint`), and those about an offset inside a comment or string see just that
comment or string (`contextAt_inside`).
-/

namespace KixScript

namespace Cursor

/-- The cursor behind some lexemes. -/
def after (cursor : Cursor) (lexemes : List Lexeme) : Cursor :=
  lexemes.foldl advance cursor

@[simp] lemma after_nil (cursor : Cursor) : cursor.after [] = cursor := rfl

/-- A first lexeme moves the cursor first. -/
@[simp] lemma after_cons (cursor : Cursor) (lexeme : Lexeme) (rest : List Lexeme) :
    cursor.after (lexeme :: rest) = (cursor.advance lexeme).after rest := rfl

/-- Lexemes move the cursor one list after the other. -/
@[simp] lemma after_append (cursor : Cursor) (before behind : List Lexeme) :
    cursor.after (before ++ behind) = (cursor.after before).after behind := by
  simp [after]

/-- A lexeme moves the offset by its length. -/
@[simp] lemma offset_advance (cursor : Cursor) (lexeme : Lexeme) :
    (cursor.advance lexeme).offset = cursor.offset + lexeme.text.length := rfl

/-- Lexemes move the offset by the length of their text. -/
lemma offset_after (cursor : Cursor) (lexemes : List Lexeme) :
    (cursor.after lexemes).offset = cursor.offset + (written lexemes).length := by
  induction lexemes generalizing cursor with
  | nil => rfl
  | cons lexeme rest ih =>
    rw [after_cons, ih, offset_advance, written_cons, List.length_append]
    omega

/-- From the start, the offset is the length of the text. -/
lemma start_after_offset (lexemes : List Lexeme) :
    (start.after lexemes).offset = (written lexemes).length := by
  rw [offset_after, show start.offset = 0 from rfl, Nat.zero_add]

end Cursor

@[simp] lemma placed_nil (cursor : Cursor) : placed cursor [] = [] := rfl

/-- A first lexeme stands at the cursor. -/
@[simp] lemma placed_cons (cursor : Cursor) (lexeme : Lexeme) (rest : List Lexeme) :
    placed cursor (lexeme :: rest) = ⟨lexeme, cursor⟩ :: placed (cursor.advance lexeme) rest := rfl

/-- Lexemes stand behind those of the first list. -/
@[simp] lemma placed_append (cursor : Cursor) (before behind : List Lexeme) :
    placed cursor (before ++ behind)
      = placed cursor before ++ placed (cursor.after before) behind := by
  induction before generalizing cursor with
  | nil => rfl
  | cons lexeme rest ih => simp [ih]

/-- Every piece stands behind the lexemes before it. -/
lemma exists_of_mem_placed {cursor : Cursor} {lexemes : List Lexeme} {piece : Piece}
    (mem : piece ∈ placed cursor lexemes) :
    ∃ before behind, lexemes = before ++ piece.lexeme :: behind ∧
      piece.cursor = cursor.after before := by
  induction lexemes generalizing cursor with
  | nil => cases mem
  | cons lexeme rest ih =>
    rw [placed_cons] at mem
    rcases List.mem_cons.1 mem with rfl | mem
    · exact ⟨[], rest, rfl, rfl⟩
    · obtain ⟨before, behind, same, place⟩ := ih mem
      exact ⟨lexeme :: before, behind, by rw [same, List.cons_append], place⟩

/-- No piece stands before the cursor. -/
lemma le_start_of_mem_placed {cursor : Cursor} {lexemes : List Lexeme} {piece : Piece}
    (mem : piece ∈ placed cursor lexemes) : cursor.offset ≤ piece.start := by
  obtain ⟨before, behind, _, place⟩ := exists_of_mem_placed mem
  rw [Piece.start, place, Cursor.offset_after]
  omega

/-- No piece reaches beyond the last one. -/
lemma stop_le_of_mem_placed {cursor : Cursor} {lexemes : List Lexeme} {piece : Piece}
    (mem : piece ∈ placed cursor lexemes) : piece.stop ≤ (cursor.after lexemes).offset := by
  obtain ⟨before, behind, rfl, place⟩ := exists_of_mem_placed mem
  rw [Piece.stop, place, Cursor.after_append, Cursor.after_cons, Cursor.offset_after _ behind,
    Cursor.offset_advance]
  exact Nat.le_add_right _ _

/-- No piece of a stream is empty. -/
lemma Stream.start_lt_stop {cursor : Cursor} {lexemes : List Lexeme} {piece : Piece}
    (stream : Stream lexemes) (mem : piece ∈ placed cursor lexemes) : piece.start < piece.stop := by
  obtain ⟨before, behind, rfl, _⟩ := exists_of_mem_placed mem
  exact Nat.lt_add_of_pos_right (List.length_pos_iff.2 stream.reads.text_ne_nil)

/-- Pieces stand in order and do not overlap. -/
lemma pairwise_placed (cursor : Cursor) (lexemes : List Lexeme) :
    (placed cursor lexemes).Pairwise fun piece piece' => piece.stop ≤ piece'.start := by
  induction lexemes generalizing cursor with
  | nil => exact .nil
  | cons lexeme rest ih => exact .cons (fun piece mem => le_start_of_mem_placed mem) (ih _)

/-- A comment or string that runs into the end of the text. -/
def Lexeme.isOpen : Lexeme → Bool
  | .region _ _ closed => !closed
  | _ => false

/-- A lexeme that ends by itself is not left open. -/
lemma Lexeme.isOpen_of_selfEnding {lexeme : Lexeme} (own_end : lexeme.selfEnding = true) :
    lexeme.isOpen = false := by
  cases lexeme with
  | region kind text closed =>
    obtain rfl : closed = true := own_end
    rfl
  | _ => rfl

/-- Nothing follows a comment or string that runs into the end of the text. -/
lemma Stream.nil_of_isOpen {before behind : List Lexeme} {lexeme : Lexeme}
    (stream : Stream (before ++ lexeme :: behind)) (is_open : lexeme.isOpen = true) :
    behind = [] := by
  have nothing : written behind = [] := by
    have reads := stream.reads
    match lexeme, reads with
    | .region .string _ false, ⟨_, _, _, _, encloses⟩ => exact encloses.2
    | .region .lineComment _ false, ⟨_, _, encloses⟩ => exact encloses.2
    | .region .blockComment _ false, ⟨_, _, encloses⟩ => exact encloses.2
  have stream' : Stream behind := by
    rw [← List.singleton_append, ← List.append_assoc] at stream
    exact stream.of_append_right
  by_contra some_lexeme
  exact stream'.written_ne_nil some_lexeme nothing

/-- No comment or string among the lexemes runs into the end of the text. -/
def AllClosed (lexemes : List Lexeme) : Prop :=
  ∀ lexeme ∈ lexemes, lexeme.isOpen = false

lemma allClosed_nil : AllClosed [] := by
  intro lexeme mem
  cases mem

/-- Both parts of lexemes that are closed are. -/
lemma allClosed_append {before behind : List Lexeme} :
    AllClosed (before ++ behind) ↔ AllClosed before ∧ AllClosed behind := by
  simp only [AllClosed, List.mem_append]
  constructor
  · intro closed
    exact ⟨fun l mem => closed l (.inl mem), fun l mem => closed l (.inr mem)⟩
  · rintro ⟨closed, closed'⟩ l (mem | mem)
    · exact closed l mem
    · exact closed' l mem

/-- Whatever stands before another lexeme is closed. -/
lemma Stream.allClosed {before behind : List Lexeme} (stream : Stream (before ++ behind))
    (some_lexeme : behind ≠ []) : AllClosed before := by
  intro lexeme mem
  obtain ⟨first, second, rfl⟩ := List.append_of_mem mem
  by_contra is_open
  rw [List.append_assoc, List.cons_append] at stream
  have nothing := stream.nil_of_isOpen (by simpa using is_open)
  exact some_lexeme (List.append_eq_nil_iff.1 nothing).2

/-- A `.` directly precedes only if the text before ends with it. -/
lemma afterDot_after {before behind : List Lexeme} (stream : Stream (before ++ behind)) :
    (Cursor.start.after before).afterDot = ((written before).getLast? == some '.') := by
  rcases List.eq_nil_or_concat before with rfl | ⟨earlier, last, rfl⟩
  · rfl
  rw [List.concat_eq_append] at stream ⊢
  rw [List.append_assoc, List.singleton_append] at stream
  obtain ⟨front, c, concat⟩ := (List.eq_nil_or_concat last.text).resolve_left
    stream.reads.text_ne_nil
  rw [List.concat_eq_append] at concat
  rw [Cursor.after_append, Cursor.after_cons, Cursor.after_nil, Cursor.advance, written_append,
    written_cons, written_nil, List.append_nil, concat, ← List.append_assoc, List.getLast?_concat,
    List.getLast?_concat]

namespace Piece

/-- A piece that is a comment or string stands where that does. -/
lemma region?_eq_some {piece : Piece} {region : Region} (h : piece.region? = some region) :
    ∃ text, piece.lexeme = .region region.kind text region.closed ∧
      region.start = piece.start ∧ region.stop = piece.stop := by
  unfold region? at h
  split at h
  · rename_i kind text closed same
    obtain rfl := Option.some.inj h
    exact ⟨text, same, rfl, rfl⟩
  · cases h

end Piece

/-- The comments and strings of some lexemes end before the cursor behind them. -/
lemma mem_regions {cursor : Cursor} {lexemes : List Lexeme} {region : Region}
    (mem : region ∈ (placed cursor lexemes).filterMap Piece.region?) :
    cursor.offset ≤ region.start ∧ region.stop ≤ (cursor.after lexemes).offset ∧
      ∃ text, .region region.kind text region.closed ∈ lexemes := by
  obtain ⟨piece, mem, found⟩ := List.mem_filterMap.1 mem
  obtain ⟨text, same, start, stop⟩ := Piece.region?_eq_some found
  refine ⟨?_, ?_, text, ?_⟩
  · rw [start]
    exact le_start_of_mem_placed mem
  · rw [stop]
    exact stop_le_of_mem_placed mem
  · obtain ⟨before, behind, rfl, _⟩ := exists_of_mem_placed mem
    rw [← same]
    exact List.mem_append_right before List.mem_cons_self

section
variable {text : List Char} {before behind : List Lexeme}

/-- A script is as long as its text. -/
lemma length_ofText (text : List Char) : (Script.ofText text).length = text.length := rfl

/-- The pieces of a script are its lexemes in their places. -/
lemma pieces_ofText (text : List Char) :
    (Script.ofText text).scan.pieces = placed .start (lexemes text) := rfl

/-- The regions of a script are the pieces that are comments or strings. -/
lemma regions_ofText (text : List Char) :
    (Script.ofText text).scan.regions
      = (placed .start (lexemes text)).filterMap Piece.region? := rfl

/-- No comment or string reaches over a joint. -/
lemma regionAt_joint (joint : lexemes text = before ++ behind) (closed : AllClosed before) :
    (Script.ofText text).regionAt (written before).length = none := by
  rw [Script.regionAt, Option.filter_eq_none_iff]
  intro region mem contains
  have mem := List.mem_of_getLast? mem
  obtain ⟨mem, starts⟩ := List.mem_filter.1 mem
  rw [regions_ofText, joint, placed_append, List.filterMap_append, List.mem_append] at mem
  rcases mem with mem | mem
  · obtain ⟨_, stop, body, mem⟩ := mem_regions mem
    have is_closed : region.closed = true := by simpa [Lexeme.isOpen] using closed _ mem
    rw [Cursor.start_after_offset] at stop
    simp only [Region.contains, is_closed, if_true, Bool.and_eq_true, decide_eq_true_eq] at contains
    omega
  · obtain ⟨start, _⟩ := mem_regions mem
    rw [Cursor.start_after_offset] at start
    simp only [decide_eq_true_eq] at starts
    omega

/-- No offset inside of a lexeme of code is in a comment or string. -/
lemma regionAt_between {lexeme : Lexeme} {inside : Nat}
    (joint : lexemes text = before ++ lexeme :: behind)
    (no_region : ∀ kind body closed, lexeme ≠ .region kind body closed) (some_inside : 0 < inside)
    (bound : inside < lexeme.text.length) :
    (Script.ofText text).regionAt ((written before).length + inside : Nat) = none := by
  have closed := (lexemes_eq_iff.1 joint).1.allClosed (List.cons_ne_nil _ _)
  rw [Script.regionAt, Option.filter_eq_none_iff]
  intro region mem contains
  have mem := List.mem_of_getLast? mem
  obtain ⟨mem, starts⟩ := List.mem_filter.1 mem
  rw [regions_ofText, joint, placed_append, placed_cons, List.filterMap_append, List.mem_append]
    at mem
  rcases mem with mem | mem
  · obtain ⟨_, stop, body, mem⟩ := mem_regions mem
    have is_closed : region.closed = true := by simpa [Lexeme.isOpen] using closed _ mem
    rw [Cursor.start_after_offset] at stop
    simp only [Region.contains, is_closed, if_true, Bool.and_eq_true, decide_eq_true_eq] at contains
    omega
  · have nothing : (Piece.region? ⟨lexeme, Cursor.start.after before⟩) = none := by
      cases lexeme with
      | region kind body closed => exact absurd rfl (no_region kind body closed)
      | _ => rfl
    rw [List.filterMap_cons_none nothing] at mem
    obtain ⟨start, _⟩ := mem_regions mem
    rw [Cursor.offset_advance, Cursor.start_after_offset] at start
    simp only [decide_eq_true_eq] at starts
    omega

/-- An offset inside of a comment or string is found there. -/
lemma regionAt_inside {kind : RegionKind} {body : List Char} {closed : Bool} {inside : Nat}
    (joint : lexemes text = before ++ .region kind body closed :: behind) (some_inside : 0 < inside)
    (bound : inside < body.length ∨ closed = false ∧ inside = body.length) :
    (Script.ofText text).regionAt ((written before).length + inside : Nat)
      = some ⟨kind, (written before).length, (written before).length + body.length, closed⟩ := by
  have here : ((placed .start (lexemes text)).filterMap Piece.region?).filter
        (fun region => region.start < (((written before).length + inside : Nat) : Int))
      = ((placed .start before).filterMap Piece.region?).filter
          (fun region => region.start < (((written before).length + inside : Nat) : Int))
        ++ [⟨kind, (written before).length, (written before).length + body.length, closed⟩] := by
    have nothing_behind : ((placed ((Cursor.start.after before).advance (.region kind body closed))
          behind).filterMap Piece.region?).filter
          (fun region => region.start < (((written before).length + inside : Nat) : Int)) = [] := by
      rw [List.filter_eq_nil_iff]
      intro region mem
      obtain ⟨start, _⟩ := mem_regions mem
      rw [Cursor.offset_advance, Cursor.start_after_offset, Lexeme.text] at start
      simp only [decide_eq_true_eq]
      omega
    have itself : (Piece.region? ⟨.region kind body closed, Cursor.start.after before⟩)
        = some ⟨kind, (written before).length, (written before).length + body.length, closed⟩ := by
      simp [Piece.region?, Piece.start, Piece.stop, Cursor.start_after_offset, Lexeme.length,
        Lexeme.text]
    rw [joint, placed_append, placed_cons, List.filterMap_append, List.filterMap_cons_some itself,
      List.filter_append, List.filter_cons_of_pos (by simp; omega), nothing_behind]
  have contained : Region.contains
      ⟨kind, (written before).length, (written before).length + body.length, closed⟩
      ((written before).length + inside : Nat) = true := by
    simp only [Region.contains, Bool.and_eq_true, decide_eq_true_eq]
    refine ⟨by omega, ?_⟩
    rcases bound with bound | ⟨rfl, bound⟩
    · split <;> simp only [decide_eq_true_eq] <;> omega
    · simp [bound]
  rw [Script.regionAt, regions_ofText, here, List.getLast?_concat, Option.filter_some,
    if_pos contained]

/-- There is one depth for each character. -/
lemma length_depths (cursor : Cursor) (lexemes : List Lexeme) :
    ((placed cursor lexemes).flatMap Piece.depths).length = (written lexemes).length := by
  induction lexemes generalizing cursor with
  | nil => rfl
  | cons lexeme rest ih =>
    rw [placed_cons, List.flatMap_cons, List.length_append, ih, written_cons, List.length_append,
      Piece.depths, List.length_replicate, Lexeme.length]

/-- The depths of a script are those of its pieces and that of its end. -/
lemma depths_ofText (text : List Char) :
    (Script.ofText text).scan.depths
      = (placed .start (lexemes text)).flatMap Piece.depths
        ++ [(Cursor.start.after (lexemes text)).depth] := rfl

/-- The length of a text is that of its lexemes. -/
lemma length_eq_of_lexemes {parts : List Lexeme} (same : lexemes text = parts) :
    text.length = (written parts).length := by
  rw [← (lexemes_eq_iff.1 same).2]

/-- Every piece lies in the text. -/
lemma stop_le_length_of_mem_pieces {piece : Piece}
    (mem : piece ∈ (Script.ofText text).scan.pieces) : piece.stop ≤ text.length := by
  have bound := stop_le_of_mem_placed mem
  rwa [Cursor.start_after_offset, ← length_eq_of_lexemes rfl] at bound

/-- The depth where a lexeme begins is that of the cursor. -/
lemma depths_joint (joint : lexemes text = before ++ behind) :
    (Script.ofText text).scan.depths[(written before).length]?
      = some (Cursor.start.after before).depth := by
  have stream : Stream behind := (lexemes_eq_iff.1 joint).1.of_append_right
  rw [depths_ofText, joint, placed_append, List.flatMap_append, List.append_assoc,
    List.getElem?_append_right (by rw [length_depths]), length_depths, Nat.sub_self]
  -- The depth is that of the first character behind the joint, or of the end of the text.
  cases stream with
  | nil => simp
  | @cons lexeme rest reads _ =>
    obtain ⟨c, more, same⟩ := List.exists_cons_of_ne_nil reads.text_ne_nil
    simp [Piece.depths, Lexeme.length, same, List.replicate_succ]

/-- The depth that is found where a lexeme begins is that of the cursor. -/
lemma depthAt_joint (joint : lexemes text = before ++ behind) :
    (Script.ofText text).depthAt (written before).length = (Cursor.start.after before).depth := by
  have length := length_eq_of_lexemes joint
  rw [written_append, List.length_append] at length
  rw [Script.depthAt, length_ofText, Nat.min_eq_left (by omega), depths_joint joint]
  rfl

/-- The depth inside of a lexeme is that where it begins. -/
lemma depthAt_inside {lexeme : Lexeme} {inside : Nat}
    (joint : lexemes text = before ++ lexeme :: behind) (bound : inside < lexeme.text.length) :
    (Script.ofText text).depthAt ((written before).length + inside)
      = (Cursor.start.after before).depth := by
  have length := length_eq_of_lexemes joint
  rw [written_append, written_cons, List.length_append, List.length_append] at length
  rw [Script.depthAt, depths_ofText, length_ofText, Nat.min_eq_left (by omega), joint,
    placed_append, placed_cons, List.flatMap_append, List.flatMap_cons, List.append_assoc,
    List.getElem?_append_right (by rw [length_depths]; omega), length_depths, Nat.add_sub_cancel_left,
    List.append_assoc, List.getElem?_append_left (by simpa [Piece.depths, Lexeme.length] using bound)]
  simp [Piece.depths, Lexeme.length, bound]

/-- Where a lexeme begins and all before is closed, there is code. -/
lemma contextAt_joint (joint : lexemes text = before ++ behind) (closed : AllClosed before) :
    (Script.ofText text).contextAt (written before).length
      = ⟨none, (Cursor.start.after before).depth⟩ := by
  have length := length_eq_of_lexemes joint
  rw [written_append, List.length_append] at length
  rw [Script.contextAt, length_ofText, if_pos (by omega), Int.max_eq_right (by omega),
    regionAt_joint joint closed]
  simp only [Option.elim_none, Int.toNat_natCast, depthAt_joint joint]

/-- Inside of a lexeme of code there is code. -/
lemma contextAt_between {lexeme : Lexeme} {inside : Nat}
    (joint : lexemes text = before ++ lexeme :: behind)
    (no_region : ∀ kind body closed, lexeme ≠ .region kind body closed) (some_inside : 0 < inside)
    (bound : inside < lexeme.text.length) :
    (Script.ofText text).contextAt ((written before).length + inside : Nat)
      = ⟨none, (Cursor.start.after before).depth⟩ := by
  have length := length_eq_of_lexemes joint
  rw [written_append, written_cons, List.length_append, List.length_append] at length
  rw [Script.contextAt, length_ofText, if_pos (by omega), Int.max_eq_right (by omega),
    regionAt_between joint no_region some_inside bound]
  simp only [Option.elim_none, Int.toNat_natCast, depthAt_inside joint bound]

/-- Every offset of a text but the first lies inside of a lexeme or just behind it. -/
lemma exists_lexeme_at {lexemes : List Lexeme} {offset : Nat} (positive : 0 < offset)
    (bound : offset ≤ (written lexemes).length) :
    ∃ before lexeme behind, lexemes = before ++ lexeme :: behind ∧
      (written before).length < offset ∧
      offset ≤ (written before).length + lexeme.text.length := by
  induction lexemes generalizing offset with
  | nil => exact absurd bound (Nat.not_le.2 positive)
  | cons lexeme rest ih =>
    rw [written_cons, List.length_append] at bound
    rcases Nat.lt_or_ge lexeme.text.length offset with beyond | within
    · have ih : ∃ before found behind, rest = before ++ found :: behind ∧
          (written before).length < offset - lexeme.text.length ∧
          offset - lexeme.text.length ≤ (written before).length + found.text.length :=
        ih (by omega) (by omega)
      obtain ⟨before, found, behind, same, lower, upper⟩ := ih
      refine ⟨lexeme :: before, found, behind, by rw [same, List.cons_append], ?_, ?_⟩
      · rw [written_cons, List.length_append]
        omega
      · rw [written_cons, List.length_append]
        omega
    · exact ⟨[], lexeme, rest, rfl, positive, by simpa using within⟩

/-- Inside of a comment or string the context is that of its beginning. -/
lemma contextAt_inside {kind : RegionKind} {body : List Char} {closed : Bool} {inside : Nat}
    (joint : lexemes text = before ++ .region kind body closed :: behind) (some_inside : 0 < inside)
    (bound : inside < body.length ∨ closed = false ∧ inside = body.length) :
    (Script.ofText text).contextAt ((written before).length + inside : Nat)
      = ⟨some ⟨kind, (written before).length, (written before).length + body.length, closed⟩,
          (Cursor.start.after before).depth⟩ := by
  have length := length_eq_of_lexemes joint
  rw [written_append, written_cons, List.length_append, List.length_append, Lexeme.text] at length
  rw [Script.contextAt, length_ofText, if_pos (by omega), Int.max_eq_right (by omega),
    regionAt_inside joint some_inside bound]
  simp only [Option.elim_some, depthAt_joint joint]

/-- Before the text the context is that of its first offset. -/
lemma contextAt_nonpos {offset : Int} (not_positive : offset ≤ 0) :
    (Script.ofText text).contextAt offset = (Script.ofText text).contextAt 0 := by
  rw [Script.contextAt, Script.contextAt, length_ofText, if_pos (by omega), if_pos (by omega),
    Int.max_eq_left (by omega), Int.max_eq_left (by omega),
    show offset.toNat = Int.toNat 0 from by omega]

/-- Beyond the text there is code, at the last depth. -/
lemma contextAt_beyond {offset : Int} (beyond : (text.length : Int) < offset) :
    (Script.ofText text).contextAt offset = ⟨none, (Cursor.start.after (lexemes text)).depth⟩ := by
  have joint : lexemes text = lexemes text ++ [] := (List.append_nil _).symm
  have length : text.length = (written (lexemes text)).length := length_eq_of_lexemes rfl
  rw [Script.contextAt, length_ofText, if_neg (by omega), ← depthAt_joint joint, ← length]
  simp only [Option.elim_none, Script.depthAt, length_ofText]
  rw [Nat.min_eq_right (by omega), Nat.min_self]

end

/-- Where an offset of a text lies: at a joint, inside of a lexeme of the code, or in a comment or
string. -/
inductive Place (text : List Char) : Nat → Prop where
  | joint {before behind} :
    lexemes text = before ++ behind →
    AllClosed before →
    Place text (written before).length
  | between {before lexeme behind inside} :
    lexemes text = before ++ lexeme :: behind →
    (∀ kind body closed, lexeme ≠ .region kind body closed) →
    0 < inside →
    inside < lexeme.text.length →
    Place text ((written before).length + inside)
  | inside {before kind body closed behind inside} :
    lexemes text = before ++ .region kind body closed :: behind →
    0 < inside →
    (inside < body.length ∨ closed = false ∧ inside = body.length) →
    Place text ((written before).length + inside)

/-- Every offset of a text is where a lexeme begins, inside of one, or at the end. -/
lemma place_of_le {text : List Char} {offset : Nat} (bound : offset ≤ text.length) :
    Place text offset := by
  rcases Nat.eq_zero_or_pos offset with rfl | positive
  · exact .joint (List.nil_append (lexemes text)).symm allClosed_nil
  rw [length_eq_of_lexemes rfl] at bound
  obtain ⟨before, lexeme, behind, joint, lower, upper⟩ := exists_lexeme_at positive bound
  obtain ⟨inside, rfl⟩ : ∃ inside, offset = (written before).length + inside :=
    ⟨offset - (written before).length, by omega⟩
  have some_inside : 0 < inside := by omega
  rcases Nat.lt_or_ge inside lexeme.text.length with bound | at_end
  · cases lexeme with
    | region kind body closed => exact .inside joint some_inside (.inl bound)
    | _ => exact .between joint nofun some_inside bound
  · obtain rfl : inside = lexeme.text.length := by omega
    cases is_open : lexeme.isOpen with
    | true =>
      cases lexeme with
      | region kind body closed =>
        have not_closed : closed = false := by simpa [Lexeme.isOpen] using is_open
        exact .inside joint some_inside (.inr ⟨not_closed, rfl⟩)
      | _ => cases is_open
    | false =>
      have joint' : lexemes text = (before ++ [lexeme]) ++ behind := by
        rw [joint, List.append_assoc, List.singleton_append]
      have closed : AllClosed (before ++ [lexeme]) := by
        refine allClosed_append.2 ⟨?_, ?_⟩
        · exact (lexemes_eq_iff.1 joint).1.allClosed (List.cons_ne_nil _ _)
        · intro other mem
          rw [List.mem_singleton.1 mem]
          exact is_open
      have place := Place.joint joint' closed
      rwa [written_append, written_cons, written_nil, List.append_nil, List.length_append] at place

/-- If all comments and strings are closed, then all lexemes are. -/
lemma allClosed_of_regions {text : List Char}
    (closed : ∀ region ∈ (Scan.ofText text).regions, region.closed = true) :
    AllClosed (lexemes text) := by
  intro lexeme mem
  obtain ⟨before, behind, split⟩ := List.append_of_mem mem
  cases lexeme with
  | region kind body is_closed =>
    obtain ⟨region, found, same⟩ :
        ∃ region, Piece.region? ⟨.region kind body is_closed, Cursor.start.after before⟩
          = some region ∧ region.closed = is_closed := ⟨_, rfl, rfl⟩
    have here : region ∈ (placed .start (lexemes text)).filterMap Piece.region? := by
      rw [split, placed_append, placed_cons]
      exact List.mem_filterMap.2
        ⟨_, List.mem_append_right _ List.mem_cons_self, found⟩
    rw [Lexeme.isOpen, ← same, closed region here]
    rfl
  | _ => rfl

end KixScript

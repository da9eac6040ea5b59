import KixScript.Layout
import KixScript.Proofs.Bisection
import KixScript.Proofs.TopDown

/-!
# Reading by index

What formatting asks about a script can be read from tables: regions, depths, atoms with the indices
of their partners, and where the lines start. Here it is read from them by index alone, and an index
that misses ends the reading with `none`. No index does miss. Bisection finds the last entry before an
offset (`searchAtom_eq`); a closed group begins before its end, so the way back stays in the atoms
(`walkBack_eq`); and a line stops inside of the text (`readStop_eq`). So each reading gives what the
library finds, up to the plan of a line (`readPlan_eq`).
-/

namespace KixScript

/-! ## Reading by index -/

/-- The atoms met on the way back from an index, which is not included. At the end of a closed group
the way goes on before its beginning, which has to lie on it. -/
def walkBack (atoms : List Atom) : Nat → Option (List Atom)
  | 0 => some []
  | index + 1 =>
    match atoms[index]? with
    | none => none
    | some (.closing _ (some partner)) =>
      if partner ≤ index then walkBack atoms partner else none
    | some atom => (walkBack atoms index).map (atom :: ·)
termination_by index => index

/-- The offset behind the blanks at an offset, of which at most `count` are read. -/
def skipBlanks (text : List Char) (offset : Nat) : Nat → Option Nat
  | 0 => some offset
  | count + 1 =>
    text[offset]?.bind fun c =>
      if isBlank c then skipBlanks text (offset + 1) count else some offset

namespace Script
variable (script : Script)

/-- The context of an offset, by the table of depths. -/
def readContext (offset : Int) : Option Context :=
  if script.scan.depths.length ≤ offset then
    script.scan.depths.getLast?.map fun depth => ⟨none, depth⟩
  else do
    let region ← script.searchRegion (max 0 offset)
    let depth ← script.scan.depths[region.elim offset.toNat Region.start]?
    return ⟨region, depth⟩

/-- The opener of a block, looked for from an offset. -/
def readOpener (seeded : Bool) (waiting : List Keyword) (place : Int) :
    Option (Option Occurrence) :=
  (walkBack script.scan.atoms (script.searchAtom place + 1).toNat).map fun met =>
    findOpener seeded waiting (met.filterMap Atom.occurrence?)

/-- The keyword of the innermost block that is open at an offset. -/
def readEnclosing (offset : Int) : Option (Option Occurrence) := do
  let context ← script.readContext offset
  script.readOpener false [] (context.regionStart.elim offset Int.ofNat)

/-- The opener that belongs to the closing keyword at an offset. -/
def readMatching (offset : Int) : Option (Option Occurrence) := do
  match ← script.searchKeyword offset with
  | some found =>
    if found.keyword.closes then script.readOpener true [found.keyword] found.start else return none
  | none => return none

/-- The keyword that a line is placed against, and the levels that it goes to the right of it. -/
def readAlignment (start : Nat) : Option (Option (Occurrence × Nat)) := do
  match ← script.searchKeyword start with
  | none => return (← script.readEnclosing start).map fun opener => (opener, 1)
  | some leading =>
    if leading.start = start && leading.keyword.closes then
      match ← script.readMatching start with
      | some opener => return some (opener, 0)
      | none =>
        return (← script.readEnclosing start).map fun opener =>
          (opener, if opener.keyword.closers.contains leading.keyword then 0 else 1)
    else return (← script.readEnclosing start).map fun opener => (opener, 1)

/-- Where a row stops: before the line feed that the next line starts behind. -/
def readRowStop (number : Nat) : Option Nat :=
  if number + 1 < script.lineCount then script.lineStarts[number + 1]?.map (· - 1)
  else some script.length

/-- Where the text of a line stops: with its row, or before the carriage return that ends it. -/
def readStop (number : Nat) : Option Nat := do
  let start ← script.lineStarts[number]?
  let stop ← script.readRowStop number
  if start < stop then
    script.text[stop - 1]?.map fun last => if last = '\r' then stop - 1 else stop
  else return stop

/-- The offset of the first character of a line that is not blank. -/
def readFirstNonblank (number : Nat) : Option Nat := do
  let start ← script.lineStarts[number]?
  let stop ← script.readStop number
  skipBlanks script.text start (stop - start)

/-- The character at an offset, unless the text of the line stops there. -/
def readLead (number offset : Nat) : Option (Option Char) := do
  let stop ← script.readStop number
  if offset < stop then script.text[offset]?.map some else return none

/-- How to place a line. -/
def readPlan (number : Nat) : Option Plan := do
  let start ← script.readFirstNonblank number
  let context ← script.readContext start
  if context.inCode then
    let lead ← script.readLead number start
    let depth := if lead = some ')' then context.depth - 1 else context.depth
    match ← script.readAlignment start with
    | none => return .indent none depth
    | some (opener, levels) =>
      let base ← (script.searchLine opener.start).toNat?
      let around ← script.readContext (← script.lineStarts[base]?)
      return .indent (some base) (depth - around.depth + levels)
  else return .keep

/-- The indentation of a line as it is. -/
def readIndentation (number : Nat) : Option Nat := do
  let start ← script.lineStarts[number]?
  let stop ← script.readFirstNonblank number
  return columnAfter 0 (script.slice start stop)

/-- The column that a line should be indented to, with the lines above as they are. -/
def readColumn (offset number : Nat) : Option Nat := do
  match ← script.readPlan number with
  | .keep => script.readIndentation number
  | .indent base levels =>
    return columnAt offset (← base.elim (some 0) script.readIndentation) levels

/-- Places a line, where `columns` are those of the lines above. -/
def readPlaced (offset : Nat) (columns : List Nat) (number : Nat) : Option PlacedLine := do
  let start ← script.lineStarts[number]?
  let stop ← script.readStop number
  let text := script.slice start stop
  match ← script.readPlan number with
  | .keep => return { column := ← script.readIndentation number, indent := 0, body := text }
  | .indent base levels =>
    let body := text.dropWhile isBlank
    let column := columnAt offset (← base.elim (some 0) (columns[·]?)) levels
    if body.isEmpty then return { column := 0, indent := 0, body := [] }
    else return { column, indent := column, body }

/-- What ends a line. -/
def readTerminator (number : Nat) : Option (List Char) :=
  if number + 1 < script.lineCount then do
    let stop ← script.readStop number
    let next ← script.lineStarts[number + 1]?
    return script.slice stop next
  else some []

/-- The next `count` lines, indented anew, where `columns` are those of the lines above. -/
def readLines (script : Script) (offset : Nat) (columns : List Nat) : Nat → Option (List Char)
  | 0 => some []
  | count + 1 => do
    let placed ← script.readPlaced offset columns columns.length
    let terminator ← script.readTerminator columns.length
    let below ← script.readLines offset (columns ++ [placed.column]) count
    return placed.text ++ terminator ++ below

/-- The text of a script with every line indented anew. -/
def readReindent (offset : Nat) : Option (List Char) :=
  script.readLines offset [] script.lineCount

end Script

/-! ## Contexts -/

section
variable {text : List Char}

/-- There is a depth for each offset, and one for the end. -/
lemma scan_depths_length (text : List Char) :
    (Script.ofText text).scan.depths.length = text.length + 1 := by
  rw [depths_ofText, List.length_append, length_depths, ← length_eq_of_lexemes rfl,
    List.length_singleton]

/-- Comments and strings start in the text. -/
lemma start_le_length_of_mem_regions {region : Region}
    (mem : region ∈ (Script.ofText text).scan.regions) : region.start ≤ text.length := by
  obtain ⟨piece, mem, found⟩ := List.mem_filterMap.1 mem
  obtain ⟨_, _, start, _⟩ := Piece.region?_eq_some found
  have stop := stop_le_length_of_mem_pieces mem
  have start_le : piece.start ≤ piece.stop := Nat.le_add_right _ _
  rw [start]
  exact Nat.le_trans start_le stop

/-- The context is read without leaving a table. -/
lemma readContext_eq (offset : Int) :
    (Script.ofText text).readContext offset = some ((Script.ofText text).contextAt offset) := by
  have depths := scan_depths_length text
  have length : (Script.ofText text).length = text.length := rfl
  have read : ∀ place : Nat, place ≤ text.length →
      (Script.ofText text).scan.depths[place]? = some ((Script.ofText text).depthAt place) := by
    intro place bound
    rw [Script.depthAt, length, Nat.min_eq_left bound, List.getElem?_eq_getElem (by omega),
      Option.getD_some]
  rw [Script.readContext, depths]
  by_cases behind : ((text.length + 1 : Nat) : Int) ≤ offset
  · have last : (Script.ofText text).scan.depths.getLast?
        = some ((Script.ofText text).depthAt offset.toNat) := by
      rw [List.getLast?_eq_getElem?, depths, Nat.add_sub_cancel, read text.length (Nat.le_refl _),
        Script.depthAt, Script.depthAt, length, Nat.min_self, Nat.min_eq_right (by omega)]
    rw [if_pos behind, last, Option.map_some, Script.contextAt, length, if_neg (by omega)]
    rfl
  · have around : (Script.ofText text).contextAt offset
        = ⟨(Script.ofText text).regionAt (max 0 offset), (Script.ofText text).depthAt
            (((Script.ofText text).regionAt (max 0 offset)).elim offset.toNat Region.start)⟩ := by
      rw [Script.contextAt, length, if_pos (by omega)]
    rw [if_neg behind, searchRegion_eq, around]
    show (((Script.ofText text).scan.depths[_]?).bind fun depth => some (Context.mk _ depth)) = _
    rw [read, Option.bind_some]
    cases region : (Script.ofText text).regionAt (max 0 offset) with
    | none =>
      show offset.toNat ≤ text.length
      omega
    | some region' =>
      have last := (Option.filter_eq_some_iff.1 region).1
      exact start_le_length_of_mem_regions (List.mem_filter.1 (List.mem_of_getLast? last)).1

/-! ## Walking back -/

/-- The partner of a closing parenthesis lies before it. -/
lemma partner_lt {index start partner : Nat}
    (closes : (Script.ofText text).scan.atoms[index]? = some (.closing start (some partner))) :
    partner < index := by
  rw [atoms_ofText] at closes
  exact (partners_iff.2 ((matching _).find_second.1 (closing_pairAtoms_iff.1 closes).2)).order

/-- The way back by index meets what is outside of closed groups. Each index on it is one of an
atom. -/
lemma walkBack_eq {index : Nat} (bound : index ≤ (Script.ofText text).scan.atoms.length) :
    walkBack (Script.ofText text).scan.atoms index
      = some (outsideGroups index 0 ((Script.ofText text).scan.atoms.take index).reverse) := by
  -- From the end of a group the way goes on at its partner, so every smaller index is needed.
  induction index using Nat.strong_induction_on with
  | h index ih =>
    cases index with
    | zero =>
      rw [walkBack]
      rfl
    | succ index =>
      have before : index < (Script.ofText text).scan.atoms.length := bound
      have here := List.getElem?_eq_getElem before
      rw [walkBack, here, List.take_succ_eq_append_getElem before, List.reverse_append,
        List.reverse_singleton, List.singleton_append]
      have onward := ih index (Nat.lt_succ_self _) (Nat.le_of_lt before)
      cases atom : (Script.ofText text).scan.atoms[index] with
      | word w => exact congrArg (Option.map (Atom.word w :: ·)) onward
      | opening start partner =>
        exact congrArg (Option.map (Atom.opening start partner :: ·)) onward
      | closing start partner =>
        cases partner with
        | none => exact congrArg (Option.map (Atom.closing start none :: ·)) onward
        | some partner =>
          rw [atom] at here
          have earlier := partner_lt here
          have group : outsideGroups (index + 1) 0 (Atom.closing start (some partner) ::
                ((Script.ofText text).scan.atoms.take index).reverse)
              = outsideGroups index (index - partner)
                  ((Script.ofText text).scan.atoms.take index).reverse := rfl
          have length := List.length_take_of_le (Nat.le_of_lt before)
          have behind : index - (index - partner) = partner := by omega
          dsimp only
          rw [if_pos (Nat.le_of_lt earlier), ih partner (by omega) (by omega), group,
            outsideGroups_skip index (index - partner), List.drop_reverse, length, behind, List.take_take,
            Nat.min_eq_left (Nat.le_of_lt earlier)]

/-- The walk back from an offset never leaves the table of atoms. -/
lemma walkBack_searchAtom (offset : Int) :
    walkBack (Script.ofText text).scan.atoms ((Script.ofText text).searchAtom offset + 1).toNat
      = some (outsideGroups ((Script.ofText text).atomsBefore offset).length 0
          ((Script.ofText text).atomsBefore offset).reverse) := by
  have bound : ((Script.ofText text).atomsBefore offset).length
      ≤ (Script.ofText text).scan.atoms.length := List.length_filter_le _ _
  rw [Script.searchAtom, bisectLeft_atoms, Int.sub_add_cancel, Int.toNat_natCast, walkBack_eq bound,
    Script.atomsBefore, ← filter_eq_take (pairwise_atomStarts text)]

/-- The search for an opener never leaves the table of atoms. -/
lemma readOpener_eq (seeded : Bool) (waiting : List Keyword) (place : Int) :
    (Script.ofText text).readOpener seeded waiting place
      = some (findOpener seeded waiting
          (keywordsBack ((Script.ofText text).atomsBefore place))) := by
  rw [Script.readOpener, walkBack_searchAtom]
  rfl

/-- The innermost opener is read without leaving a table. -/
lemma readEnclosing_eq (offset : Int) :
    (Script.ofText text).readEnclosing offset
      = some ((Script.ofText text).enclosingOpener offset) := by
  rw [Script.readEnclosing, readContext_eq]
  exact readOpener_eq _ _ _

/-- The matching opener is read without leaving a table. -/
lemma readMatching_eq (offset : Int) :
    (Script.ofText text).readMatching offset
      = some ((Script.ofText text).matchingOpener offset) := by
  rw [Script.readMatching, searchKeyword_eq, Script.matchingOpener]
  cases (Script.ofText text).keywordAt offset with
  | none => rfl
  | some found =>
    show (if found.keyword.closes then _ else _) = _
    rw [readOpener_eq]
    dsimp only
    split <;> rfl

/-- The alignment is read without leaving a table. -/
lemma readAlignment_eq (start : Nat) :
    (Script.ofText text).readAlignment start = some ((Script.ofText text).alignment start) := by
  rw [Script.readAlignment, searchKeyword_eq, readMatching_eq, readEnclosing_eq, Script.alignment]
  cases (Script.ofText text).keywordAt start with
  | none => rfl
  | some leading =>
    show (if leading.start = start && leading.keyword.closes then _ else _) = _
    dsimp only
    split
    · cases (Script.ofText text).matchingOpener start with
      | none => rfl
      | some opener => rfl
    · rfl

/-! ## Lines -/

/-- The start of a line is in the table. -/
lemma lineStarts_eq {number : Nat} {line : Line}
    (found : (Script.ofText text).lines[number]? = some line) :
    (Script.ofText text).lineStarts[number]? = some line.start := by
  rw [Script.lineStarts, List.getElem?_map, found, Option.map_some]

/-- Every offset lies on a line of the script. -/
lemma lineOf_lt (offset : Int) :
    (Script.ofText text).lineOf offset < (Script.ofText text).lineCount := by
  have some_line := List.length_pos_iff.2 (lines_ne_nil text)
  have shorter := List.length_filter_le (fun line : Line =>
    decide (line.start ≤ (Script.ofText text).clamp offset)) (Script.ofText text).lines
  rw [Script.lineOf, Script.lineCount]
  omega

/-- The line of an offset has its start in the table. -/
lemma lineStarts_lineOf (offset : Int) :
    (Script.ofText text).lineStarts[(Script.ofText text).lineOf offset]?
      = some ((Script.ofText text).lineStart ((Script.ofText text).lineOf offset)) := by
  have found := List.getElem?_eq_getElem (@lineOf_lt text offset)
  rw [lineStarts_eq found, Script.lineStart, found]
  rfl

end

/-- The last character of a row stands before what follows it. -/
lemma getElem?_last {text front row rest : List Char} (parts : text = front ++ (row ++ rest))
    (some_row : row ≠ []) : text[front.length + row.length - 1]? = row.getLast? := by
  have some_char := List.length_pos_iff.2 some_row
  have place : front.length + row.length - 1 - front.length = row.length - 1 := by omega
  rw [parts, List.getElem?_append_right (by omega), List.getElem?_append_left (by omega), place,
    List.getLast?_eq_getElem?]

/-- Blanks are skipped without leaving the text. -/
lemma skipBlanks_eq {text front run rest : List Char} (parts : text = front ++ (run ++ rest)) :
    skipBlanks text front.length run.length
      = some (front.length + (run.takeWhile isBlank).length) := by
  induction run generalizing front with
  | nil => rfl
  | cons c run ih =>
    have here : text[front.length]? = some c := getElem?_behind parts
    rw [List.length_cons, skipBlanks, here, Option.bind_some]
    split
    · rename_i blank
      have onward : skipBlanks text (front ++ [c]).length run.length = _ :=
        ih (by rw [parts, List.append_assoc, List.singleton_append, List.cons_append])
      rw [List.length_append, List.length_singleton] at onward
      rw [onward, List.takeWhile_cons_of_pos blank, List.length_cons, Nat.add_assoc, Nat.add_comm 1]
    · rename_i no_blank
      rw [List.takeWhile_cons_of_neg no_blank]
      rfl

section
variable {text : List Char} {number : Nat} {line : Line}
  (found : (Script.ofText text).lines[number]? = some line)
include found

/-- A line has a number below their count. -/
lemma number_lt : number < (Script.ofText text).lineCount :=
  (List.getElem?_eq_some_iff.1 found).1

/-- The next line starts behind a row and its line feed. -/
lemma lineStarts_succ (more : number + 1 < (Script.ofText text).lineCount) :
    (Script.ofText text).lineStarts[number + 1]? = some (line.start + line.row.length + 1) := by
  have next := List.getElem?_eq_getElem more
  obtain ⟨rest, stands⟩ := exists_standsIn found
  obtain ⟨rest', stands'⟩ := exists_standsIn next
  have above := textAbove_succ (row_of_lines found)
  rw [lineStarts_eq next, stands'.start, above, List.length_append, List.length_append,
    List.length_singleton, ← stands.start, Nat.add_assoc]

/-- Only behind the last line there is nothing. -/
lemma rest_eq_nil_iff {rest : List Char}
    (stands : line.StandsIn text (textAbove text number) rest) :
    rest = [] ↔ number + 1 = (Script.ofText text).lineCount := by
  have lines : (Script.ofText text).lineCount = text.count '\n' + 1 := by
    rw [Script.lineCount, Script.ofText, length_linesFrom, length_rows]
  have no_newline := List.count_eq_zero.2 (no_newline_of_mem_lines (List.mem_of_getElem? found))
  have count := congrArg (List.count '\n') stands.parts
  rw [List.count_append, List.count_append, count_textAbove found, no_newline, Nat.zero_add] at count
  rw [lines, count]
  cases rest with
  | nil => exact ⟨fun _ => rfl, fun _ => rfl⟩
  | cons c rest =>
    rw [stands.ended c rfl, List.count_cons_self]
    constructor
    · intro nothing
      cases nothing
    · omega

/-- The last line reaches to the end of the text. -/
lemma stop_of_last (last : ¬ number + 1 < (Script.ofText text).lineCount) :
    text.length = line.start + line.row.length := by
  obtain ⟨rest, stands⟩ := exists_standsIn found
  have bound := number_lt found
  have nothing : rest = [] := (rest_eq_nil_iff found stands).2 (by omega)
  have length := congrArg List.length stands.parts
  rw [nothing, List.append_nil, List.length_append, ← stands.start] at length
  exact length

/-- The stop of a row is read without leaving a table. -/
lemma readRowStop_eq :
    (Script.ofText text).readRowStop number = some (line.start + line.row.length) := by
  rw [Script.readRowStop]
  split
  · rename_i more
    rw [lineStarts_succ found more]
    rfl
  · rename_i last
    exact congrArg some (stop_of_last found last)

/-- The stop of a line is read without leaving a table. -/
lemma readStop_eq : (Script.ofText text).readStop number = some line.stop := by
  obtain ⟨rest, stands⟩ := exists_standsIn found
  have last := getElem?_last stands.parts
  rw [← stands.start] at last
  rw [Script.readStop, lineStarts_eq found, readRowStop_eq found, Line.stop]
  show (if line.start < line.start + line.row.length then
    text[line.start + line.row.length - 1]?.map _ else _) = _
  rcases line.text_ending_cases with ⟨returned, _⟩ | ⟨not_returned, same, _⟩
  · have some_row : line.row ≠ [] := by
      rw [returned]
      exact List.concat_ne_nil _ _
    have length := congrArg List.length returned
    rw [List.length_append, List.length_singleton] at length
    have is_return : line.row.getLast? = some '\r' := by rw [returned, List.getLast?_concat]
    rw [if_pos (by omega), last some_row, is_return, Option.map_some, if_pos rfl, length]
    rfl
  · rw [← same]
    cases row : line.row.getLast? with
    | none =>
      rw [List.getLast?_eq_none_iff.1 row]
      exact if_neg (Nat.lt_irrefl _)
    | some c =>
      have some_row : line.row ≠ [] := by
        intro nothing
        rw [nothing] at row
        cases row
      have some_char := List.length_pos_iff.2 some_row
      rw [row] at not_returned
      rw [if_pos (by omega), last some_row, row, Option.map_some,
        if_neg fun same => not_returned (congrArg some same)]

/-- The first character that is not blank is read without leaving a table. -/
lemma readFirstNonblank_eq :
    (Script.ofText text).readFirstNonblank number = some line.firstNonblank := by
  obtain ⟨rest, stands⟩ := exists_standsIn found
  have skips := skipBlanks_eq stands.text_parts
  rw [← stands.start] at skips
  rw [Script.readFirstNonblank, lineStarts_eq found, readStop_eq found]
  show skipBlanks text line.start (line.start + line.text.length - line.start) = _
  rw [Nat.add_sub_cancel_left]
  exact skips

/-- The first character of the body is read without leaving a table. -/
lemma readLead_eq :
    (Script.ofText text).readLead number line.firstNonblank = some line.body.head? := by
  have length := congrArg List.length line.blanks_append_body
  rw [List.length_append] at length
  rw [Script.readLead, readStop_eq found, Line.stop, ← length]
  show (if line.firstNonblank < line.start + (line.blanks.length + line.body.length) then
    text[line.firstNonblank]?.map some else some none) = _
  cases body : line.body with
  | nil => exact if_neg (Nat.lt_irrefl _)
  | cons c more =>
    rw [getElem?_firstNonblank found body, List.length_cons]
    exact if_pos (show line.start + line.blanks.length < _ by omega)

/-- The plan of a line is read without leaving a table. -/
lemma readPlan_eq :
    (Script.ofText text).readPlan number = some ((Script.ofText text).planLine line) := by
  rw [Script.readPlan, readFirstNonblank_eq found, Script.planLine, Script.plan]
  show ((Script.ofText text).readContext line.firstNonblank).bind _ = _
  rw [readContext_eq, Option.bind_some]
  split
  · rw [readLead_eq found, readAlignment_eq]
    cases (Script.ofText text).alignment line.firstNonblank with
    | none => rfl
    | some aligned =>
      obtain ⟨opener, levels⟩ := aligned
      show (((Script.ofText text).searchLine opener.start).toNat?).bind _ = _
      rw [searchLine_eq]
      show ((Script.ofText text).lineStarts[_]?).bind _ = _
      rw [lineStarts_lineOf]
      show ((Script.ofText text).readContext _).bind _ = _
      rw [readContext_eq]
      rfl
  · rfl

end

end KixScript

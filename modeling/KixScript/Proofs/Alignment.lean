import KixScript.Proofs.Program

/-!
# Where the lines of a program are placed

A line is placed against the line of the opener or branch that its search comes to, and that line has
been placed before. While a program is walked over from top to bottom, the lines above thus tell all
that is needed for the next one: the block around it, and the column of its opener and of its latest
branch (`Around`). This is kept by every line and every complete block, so each line is found at the
column of its level (`reindent_program`).
-/

namespace KixScript

/-- The line of a layout that is written as this one, if its margin is made of spaces. -/
def Row.placed (row : Row) : PlacedLine :=
  ⟨row.margin.length, row.margin.length, row.content⟩

/-- The columns of some lines. -/
def columns (rows : List Row) : List Nat :=
  rows.map fun row => row.margin.length

/-- The columns of rows below stand behind those of the rows above. -/
lemma columns_append (above below : List Row) :
    columns (above ++ below) = columns above ++ columns below :=
  List.map_append

/-- There is one column for each row. -/
lemma length_columns (rows : List Row) : (columns rows).length = rows.length :=
  List.length_map _

/-- A source is its rows with line feeds. -/
lemma flatMap_text (rows : List Row) :
    (rows.map Row.text).flatMap (· ++ ['\n']) = source rows :=
  List.flatMap_map _ _ rows

/-- Where `above` are the lines above, placed as `above'`, the lines `rows` are placed as `rows'`. -/
def Laid (all : List Row) (offset : Nat) (above above' rows rows' : List Row) : Prop :=
  (Script.ofText (source all)).placeLines offset (columns above')
      (linesFrom (source above).length (rows.map Row.text))
    = rows'.map Row.placed

/-- Rows laid below others are laid together with them. -/
lemma Laid.append {all above above' first first' second second' : List Row} {offset : Nat}
    (laid : Laid all offset above above' first first')
    (laid' : Laid all offset (above ++ first) (above' ++ first') second second') :
    Laid all offset above above' (first ++ second) (first' ++ second') := by
  have placed : (first'.map Row.placed).map PlacedLine.column = columns first' := List.map_map
  rw [Laid] at laid laid'
  rw [source_append, columns_append, List.length_append] at laid'
  rw [Laid, List.map_append, linesFrom_append, flatMap_text, placeLines_append, laid, placed, laid',
    List.map_append]

/-- As many rows are laid as there are. -/
lemma Laid.length_append {all above above' rows rows' : List Row} {offset : Nat}
    (laid : Laid all offset above above' rows rows') (length : above'.length = above.length) :
    (above' ++ rows').length = (above ++ rows).length := by
  have placed := congrArg List.length laid
  rw [length_placeLines, length_linesFrom, List.length_map, List.length_map] at placed
  rw [List.length_append, List.length_append, length, placed]

section
variable {all above above' below : List Row} {row : Row} {keyword : Option Keyword} {offset : Nat}

/-- A keyword stands on a line outside of all groups, which has been placed at a column. -/
structure StandsAt (all above' : List Row) (found : Occurrence) (column : Nat) : Prop where
  at_column : (columns above')[(Script.ofText (source all)).lineOf found.start]? = some column
  outside : ((Script.ofText (source all)).contextAt
    ((Script.ofText (source all)).lineStart
      ((Script.ofText (source all)).lineOf found.start))).depth = 0

/-- More rows below leave a keyword at its column. -/
lemma StandsAt.append {found : Occurrence} {column : Nat} (stands : StandsAt all above' found column)
    (more : List Row) : StandsAt all (above' ++ more) found column := by
  refine ⟨?_, stands.outside⟩
  obtain ⟨bound, _⟩ := List.getElem?_eq_some_iff.1 stands.at_column
  rw [columns_append, List.getElem?_append_left bound]
  exact stands.at_column

/-- No line feed is in a row that fits. -/
lemma Row.Fits.no_newline_text (fits : row.Fits keyword) : '\n' ∉ row.text := by
  intro mem
  rcases List.mem_append.1 mem with mem | mem
  · exact absurd (fits.margin_blank _ mem) (by decide)
  · exact fits.no_newline mem

/-- A line with a row that fits has its margin as blanks and its content as body. -/
lemma Row.Fits.line_parts (fits : row.Fits keyword) (start : Nat) :
    (Line.mk start row.text).text = row.text ∧ (Line.mk start row.text).blanks = row.margin ∧
      (Line.mk start row.text).body = row.content := by
  have text : (Line.mk start row.text).text = row.text := by
    apply if_neg
    intro last
    rcases List.mem_append.1 (List.mem_of_getLast? last) with mem | mem
    · exact absurd (fits.margin_blank _ mem) (by decide)
    · exact fits.no_return mem
  have stop : row.content.takeWhile isBlank = [] ∧ row.content.dropWhile isBlank = row.content := by
    have no_blank := fits.head.no_blank
    cases content : row.content with
    | nil => exact ⟨rfl, rfl⟩
    | cons c rest =>
      have no_blank := no_blank c (by rw [content]; rfl)
      simp [no_blank]
  refine ⟨text, ?_, ?_⟩
  · rw [Line.blanks, text, Row.text, List.takeWhile_append_of_pos fits.margin_blank, stop.1,
      List.append_nil]
  · rw [Line.body, text, Row.text, List.dropWhile_append_of_pos fits.margin_blank, stop.2]

/-- No line feed is in any row. -/
lemma no_newline_of_allFit (fits : AllFit all) : ∀ text ∈ all.map Row.text, '\n' ∉ text := by
  intro text mem
  obtain ⟨row, here, rfl⟩ := List.mem_map.1 mem
  obtain ⟨keyword, row_fits⟩ := fits row here
  exact row_fits.no_newline_text

/-- The lines of a program and the empty one behind the last line feed. -/
lemma lines_source (fits : AllFit all) :
    (Script.ofText (source all)).lines = linesFrom 0 (all.map Row.text ++ [[]]) := by
  have split := rows_flatMap_append (no_newline_of_allFit fits) []
  rw [flatMap_text, List.append_nil] at split
  rw [Script.ofText, split]
  rfl

/-- A source is split at a row. -/
lemma source_split (split : all = above ++ row :: below) :
    source all = source above ++ (row.text ++ ['\n']) ++ source below := by
  rw [split, source_append, List.append_assoc]
  rfl

/-- Before the content of a row come the rows above and its margin. -/
lemma length_before (above : List Row) (row : Row) :
    (written (lexemes (source above) ++ row.margin.map .space)).length
      = (source above).length + row.margin.length := by
  rw [written_append, written_spaces, List.length_append, written, lexemes_text]

/-- The keywords in sight of a line are those of the lines above it. -/
lemma reverse_surface_before (above : List Row) (row : Row) :
    (surface .start (lexemes (source above) ++ row.margin.map .space)).reverse = met above := by
  rw [surface_append, surface_spaces, List.append_nil, met]

section
variable (fits : AllFit all) (split : all = above ++ row :: below) (row_fits : row.Fits keyword)
include fits split

/-- The rows above fit. -/
lemma allFit_above : AllFit above := by
  rw [split] at fits
  exact (allFit_append.1 fits).1

/-- A row starts behind those above. -/
lemma lineStart_row : (Script.ofText (source all)).lineStart above.length = (source above).length := by
  have length : (linesFrom 0 (above.map Row.text)).length = above.length := by
    rw [length_linesFrom, List.length_map]
  rw [Script.lineStart, lines_source fits, split, List.map_append, List.append_assoc,
    linesFrom_append, flatMap_text, List.getElem?_append_right (Nat.le_of_eq length), length,
    Nat.sub_self, Nat.zero_add]
  rfl

include row_fits

/-- There is a joint behind the margin of a line. -/
lemma lexemes_split :
    lexemes (source all)
      = (lexemes (source above) ++ row.margin.map .space)
        ++ (lexemes (row.content ++ ['\n']) ++ lexemes (source below)) := by
  obtain ⟨settled, _⟩ := complete_source (allFit_above fits split)
  rw [source_split split, List.append_assoc, lexemes_append settled, lexemes_append row_fits.settled,
    row_fits.lexemes_text, List.append_assoc, List.append_assoc]

/-- The content of a row is on its line. -/
lemma lineOf_row :
    (Script.ofText (source all)).lineOf ((source above).length + row.margin.length : Nat)
      = above.length := by
  have whole := source_split split
  rw [Row.text, List.append_assoc, List.append_assoc, List.append_assoc, ← List.append_assoc]
    at whole
  -- Each line above has one line feed, and the margin has none.
  have count : (source above).count '\n' = above.length := by
    have above_rows := length_rows (source above)
    have lines := lines_source (allFit_above fits split)
    have length := congrArg List.length lines
    rw [Script.ofText, length_linesFrom, length_linesFrom, above_rows, List.length_append,
      List.length_map] at length
    exact Nat.succ.inj length
  have none_here : row.margin.count '\n' = 0 := by
    rw [List.count_eq_zero]
    intro mem
    exact absurd (row_fits.margin_blank _ mem) (by decide)
  rw [lineOf_eq_count _ (by rw [whole]; simp), whole, ← List.length_append, List.take_left,
    List.count_append, count, none_here, Nat.add_zero]

/-- Before a line of a program, nothing is open. -/
lemma idle_row :
    AllClosed (lexemes (source above) ++ row.margin.map .space) ∧
      (Cursor.start.after (lexemes (source above) ++ row.margin.map .space)).Alike .start := by
  obtain ⟨_, idle⟩ := complete_source (allFit_above fits split)
  refine ⟨?_, ?_⟩
  · obtain ⟨before, last, content, _⟩ := row_fits.exists_last
    have stream := (lexemes_eq_iff.1 (lexemes_split fits split row_fits)).1
    exact stream.allClosed (by simp [content])
  · rw [Cursor.after_append]
    exact idle.blanks row_fits.margin_blank

/-- The content of a row begins in code, outside of groups. -/
lemma contextAt_row :
    (Script.ofText (source all)).contextAt ((source above).length + row.margin.length : Nat)
      = ⟨none, 0⟩ := by
  obtain ⟨closed, idle⟩ := idle_row fits split row_fits
  rw [← length_before, contextAt_joint (lexemes_split fits split row_fits) closed, idle.depth]
  rfl

/-- The opener around a row is found among the keywords met above. -/
lemma enclosingOpener_row :
    (Script.ofText (source all)).enclosingOpener ((source above).length + row.margin.length : Nat)
      = findOpener false [] (met above) := by
  obtain ⟨closed, idle⟩ := idle_row fits split row_fits
  rw [← length_before, enclosingOpener_joint (lexemes_split fits split row_fits) closed idle.depth,
    reverse_surface_before]

end

section
variable (fits : AllFit all) (split : all = above ++ row :: below)
include fits split

/-- A plain row begins with no keyword. -/
lemma keywordAt_plain (row_fits : row.Fits none) :
    (Script.ofText (source all)).keywordAt ((source above).length + row.margin.length : Nat)
      = none := by
  obtain ⟨_, idle⟩ := idle_row fits split row_fits
  rw [← length_before]
  apply keywordAt_eq_none (lexemes_split fits split row_fits)
  intro word rest first
  obtain ⟨before, last, content, _⟩ := row_fits.exists_last
  obtain ⟨lexeme, more, content⟩ :
      ∃ lexeme more, lexemes (row.content ++ ['\n']) = lexeme :: more :=
    List.exists_cons_of_ne_nil (by simp [content])
  rw [content, List.cons_append] at first
  obtain ⟨rfl, _⟩ := List.cons.inj first
  exact row_fits.keyword?_eq_none idle content

/-- A row with a keyword begins with it. -/
lemma keywordAt_row {keyword : Keyword} (row_fits : row.Fits (some keyword)) :
    ∃ found, (Script.ofText (source all)).keywordAt
        ((source above).length + row.margin.length : Nat) = some found ∧
      found.keyword = keyword ∧ found.start = (source above).length + row.margin.length := by
  obtain ⟨_, idle⟩ := idle_row fits split row_fits
  have joint := lexemes_split fits split row_fits
  obtain ⟨word, rest, first, spells⟩ := row_fits.head.exists_word
  have some_word : word ≠ [] := by
    rintro rfl
    cases spells
  rw [first, List.cons_append] at joint
  have here : (Cursor.start.after (lexemes (source above) ++ row.margin.map .space)).keyword? word
      = some keyword := by
    rw [Cursor.keyword?, idle.afterDot]
    exact spells
  have some_text := List.length_pos_iff.2 some_word
  have found := keywordAt_word joint (Int.le_refl _) (by omega)
  rw [here, length_before] at found
  exact ⟨_, found, rfl, rfl⟩

/-- A line is placed inside of the block around it, unless its keyword closes something. -/
lemma alignment_inside (row_fits : row.Fits keyword) (opens : ∀ k ∈ keyword, Keyword.closes k = false) :
    (Script.ofText (source all)).alignment ((source above).length + row.margin.length : Nat)
      = (findOpener false [] (met above)).map fun opener => (opener, 1) := by
  rw [Script.alignment, enclosingOpener_row fits split row_fits]
  cases keyword with
  | none => rw [keywordAt_plain fits split row_fits]
  | some keyword =>
    obtain ⟨found, here, is_keyword, _⟩ := keywordAt_row fits split row_fits
    have not_closing : found.keyword.closes = false := is_keyword ▸ opens keyword rfl
    simp only [here, not_closing, Bool.and_false, Bool.false_eq_true, if_false]

/-- A line whose keyword closes something is placed below the opener of that. -/
lemma alignment_closing {keyword : Keyword} (row_fits : row.Fits (some keyword))
    (closes : keyword.closes = true) {opener : Occurrence}
    (finds : findOpener true [keyword] (met above) = some opener) :
    (Script.ofText (source all)).alignment ((source above).length + row.margin.length : Nat)
      = some (opener, 0) := by
  obtain ⟨found, here, is_keyword, start⟩ := keywordAt_row fits split row_fits
  obtain ⟨_, idle⟩ := idle_row fits split row_fits
  have joint := lexemes_split fits split row_fits
  have matching : (Script.ofText (source all)).matchingOpener
      ((source above).length + row.margin.length : Nat) = some opener := by
    rw [Script.matchingOpener, here]
    dsimp only
    rw [is_keyword, if_pos closes, start, ← length_before, keywordsBack_joint joint,
      sight_outside idle.depth, reverse_surface_before, finds]
  rw [Script.alignment, here, matching]
  simp only [is_keyword, closes, start, decide_true, Bool.and_self, if_true]

end

/-- Where a line with this keyword, or with none, has to be placed under the lines above: inside of
the block around it, or below the opener that its keyword belongs to. -/
inductive Target (all above above' : List Row) (offset : Nat) : Option Keyword → Nat → Prop where
  | outside {role} :
    (∀ k ∈ role, Keyword.closes k = false) →
    findOpener false [] (met above) = none →
    Target all above above' offset role 0
  | inside {role mark column} :
    (∀ k ∈ role, Keyword.closes k = false) →
    findOpener false [] (met above) = some mark →
    StandsAt all above' mark column →
    Target all above above' offset role (column + offset)
  | closing {k opener column} :
    Keyword.closes k = true →
    findOpener true [k] (met above) = some opener →
    StandsAt all above' opener column →
    Target all above above' offset (some k) column

/-- A line in code outside of all groups is placed by its alignment alone. -/
lemma plan_of_outside {script : Script} {start : Nat} (outside : script.contextAt start = ⟨none, 0⟩)
    (lead : Option Char) :
    script.plan start lead
      = match script.alignment start with
        | none => .indent none 0
        | some (opener, levels) => .indent (some (script.lineOf opener.start))
            (levels - (script.contextAt (script.lineStart (script.lineOf opener.start))).depth) := by
  have depth : (if lead = some ')' then 0 - 1 else 0 : Nat) = 0 := by
    split <;> rfl
  rw [Script.plan, outside]
  simp only [Context.inCode, Option.isNone_none, if_true, depth]
  cases script.alignment start with
  | none => rfl
  | some found =>
    dsimp only
    congr 1
    omega

/-- No levels add no columns. -/
lemma columnAt_zero (offset base : Nat) : columnAt offset base 0 = base := by
  rw [columnAt, Int.mul_zero, Int.add_zero, Int.toNat_natCast]

/-- One level adds one offset. -/
lemma columnAt_one (offset base : Nat) : columnAt offset base 1 = base + offset := by
  rw [columnAt, Int.mul_one, ← Int.natCast_add, Int.toNat_natCast]

section
variable (fits : AllFit all) (split : all = above ++ row :: below) (row_fits : row.Fits keyword)
include fits split row_fits

/-- The column of a line comes from its target. -/
lemma Target.exists_plan {column : Nat} (target : Target all above above' offset keyword column)
    (lead : Option Char) :
    ∃ base levels,
      (Script.ofText (source all)).plan ((source above).length + row.margin.length) lead
        = .indent base levels ∧
      columnAt offset (base.elim 0 fun line => (columns above')[line]?.getD 0) levels = column := by
  have plan := plan_of_outside (contextAt_row fits split row_fits) lead
  cases target with
  | outside opens nothing =>
    rw [alignment_inside fits split row_fits opens, nothing] at plan
    exact ⟨none, 0, plan, columnAt_zero offset 0⟩
  | inside opens finds stands =>
    rw [alignment_inside fits split row_fits opens, finds] at plan
    refine ⟨_, _, plan, ?_⟩
    rw [stands.outside, Option.elim_some, stands.at_column]
    exact columnAt_one offset _
  | closing closes finds stands =>
    rw [alignment_closing fits split row_fits closes finds] at plan
    refine ⟨_, _, plan, ?_⟩
    rw [stands.outside, Option.elim_some, stands.at_column]
    exact columnAt_zero offset _

/-- A row is laid at the column that it is meant for. -/
lemma Target.laid {column : Nat} (target : Target all above above' offset keyword column) :
    Laid all offset above above' [row] [row.atColumn column] := by
  obtain ⟨text, blanks, body⟩ := row_fits.line_parts (source above).length
  obtain ⟨base, levels, plan, at_column⟩ := target.exists_plan fits split row_fits row.content.head?
  have place : (Script.ofText (source all)).placeLine offset (columns above')
      ⟨(source above).length, row.text⟩ = (row.atColumn column).placed := by
    rw [Script.placeLine, Script.planLine, Line.firstNonblank, blanks, body, plan]
    dsimp only
    rw [at_column, Row.placed, Row.atColumn]
    cases row.content with
    | nil => rfl
    | cons c rest => simp
  rw [Laid, List.map_singleton, List.map_singleton, linesFrom, linesFrom, Script.placeLines,
    Script.placeLines, place]

end

section
variable (fits : AllFit all) (split : all = above ++ row :: below)
include fits split

/-- The keyword of a row stands at the column that the row is laid at. -/
lemma standsAt_row {keyword : Keyword} (row_fits : row.Fits (some keyword))
    (length : above'.length = above.length) {found : Occurrence}
    (start : found.start = (source above).length + row.margin.length) (column : Nat) :
    StandsAt all (above' ++ [row.atColumn column]) found column := by
  have line := lineOf_row fits split row_fits
  rw [← start] at line
  refine ⟨?_, ?_⟩
  · have at_column : (row.atColumn column).margin.length = column := by
      obtain ⟨c, rest, content, _⟩ := row_fits.head.exists_cons
      simp [Row.atColumn, content]
    rw [line, columns_append, List.getElem?_append_right (by rw [length_columns, length]),
      length_columns, length, Nat.sub_self]
    exact congrArg some at_column
  · obtain ⟨_, idle⟩ := complete_source (allFit_above fits split)
    obtain ⟨closed, _⟩ := idle_row fits split row_fits
    -- The line begins behind complete lines, so outside of all groups.
    have joint := lexemes_split fits split row_fits
    rw [List.append_assoc] at joint
    have context := contextAt_joint joint (allClosed_append.1 closed).1
    rw [written, lexemes_text] at context
    rw [line, lineStart_row fits split, context]
    exact idle.depth

end

end

/-- What the lines above tell about the next one: it is in no block, or in a block of some kind whose
opener and whose latest opener or branch stand one level to the left. -/
inductive Around (all above above' : List Row) (offset : Nat) : Option BlockKind → Nat → Prop where
  | outside :
    findOpener false [] (met above) = none →
    Around all above above' offset none 0
  | within {kind opener mark level} :
    Owns kind opener (met above) →
    StandsAt all above' opener (offset * level) →
    findOpener false [] (met above) = some mark →
    StandsAt all above' mark (offset * level) →
    Around all above above' offset (some kind) (level + 1)

section
variable {all above above' below : List Row} {offset level : Nat} {kind : Option BlockKind}

/-- A line that closes nothing goes to the level of its block. -/
lemma Around.target (around : Around all above above' offset kind level) {role : Option Keyword}
    (opens : ∀ k ∈ role, Keyword.closes k = false) :
    Target all above above' offset role (offset * level) := by
  cases around with
  | outside nothing => exact .outside opens nothing
  | within _ _ finds stands => exact .inside opens finds stands

/-- Lines that leave the searches as they are leave the block as it is. -/
lemma Around.append (around : Around all above above' offset kind level) {more more' : List Row}
    (search : findOpener false [] (met (above ++ more)) = findOpener false [] (met above))
    (owns : ∀ kind opener, Owns kind opener (met above) → Owns kind opener (met (above ++ more))) :
    Around all (above ++ more) (above' ++ more') offset kind level := by
  cases around with
  | outside nothing => exact .outside (search.trans nothing)
  | within owned stands finds stands' =>
    exact .within (owns _ _ owned) (stands.append more') (search.trans finds) (stands'.append more')

/-- Lines are placed, and leave the block around them as it is. -/
structure Passes (all : List Row) (offset : Nat) (above above' rows rows' : List Row)
    (kind : Option BlockKind) (level : Nat) : Prop where
  laid : Laid all offset above above' rows rows'
  around : Around all (above ++ rows) (above' ++ rows') offset kind level

/-- Rows laid before those that are passed are passed too. -/
lemma Passes.prepend {first first' rows rows' : List Row}
    (passes : Passes all offset (above ++ first) (above' ++ first') rows rows' kind level)
    (laid : Laid all offset above above' first first') :
    Passes all offset above above' (first ++ rows) (first' ++ rows') kind level := by
  refine ⟨laid.append passes.laid, ?_⟩
  rw [← List.append_assoc, ← List.append_assoc]
  exact passes.around

section
variable {row : Row} {block : BlockKind}

/-- A line without a keyword goes to the level of its block. -/
lemma Around.plain (fits : AllFit all) (split : all = above ++ row :: below)
    (row_fits : row.Fits none) (around : Around all above above' offset kind level) :
    Passes all offset above above' [row] [row.atColumn (offset * level)] kind level := by
  have target : Target all above above' offset none (offset * level) := around.target nofun
  refine ⟨target.laid fits split row_fits, ?_⟩
  have same := met_plain (allFit_above fits split) row_fits
  apply around.append
  · rw [same]
  · rw [same]
    exact fun _ _ owns => owns

/-- The head of a block is laid at the level around it. -/
lemma Around.laid_head (fits : AllFit all) (split : all = above ++ row :: below)
    (row_fits : row.Fits (some (.opener block)))
    (around : Around all above above' offset kind level) :
    Laid all offset above above' [row] [row.atColumn (offset * level)] := by
  have target : Target all above above' offset (some (.opener block)) (offset * level) := by
    apply around.target
    intro keyword mem
    rw [← Option.some.inj (Option.mem_def.1 mem)]
    rfl
  exact target.laid fits split row_fits

/-- The head of a block owns what comes behind it. -/
lemma around_head (fits : AllFit all) (split : all = above ++ row :: below)
    (row_fits : row.Fits (some (.opener block))) (length : above'.length = above.length) :
    Around all (above ++ [row]) (above' ++ [row.atColumn (offset * level)]) offset (some block)
      (level + 1) := by
  obtain ⟨head, seen, opens, start⟩ := met_keyword (allFit_above fits split) row_fits
  have stands := standsAt_row fits split row_fits length start (offset * level)
  apply Around.within _ stands _ stands
  · rw [seen]
    exact owns_opener opens _
  · rw [seen]
    exact findOpener_opener_nil opens

/-- The closer of a block goes back to the level of its head. -/
lemma Around.laid_close (fits : AllFit all) (split : all = above ++ row :: below)
    (row_fits : row.Fits (some (.closer block)))
    (around : Around all above above' offset (some block) (level + 1)) :
    Laid all offset above above' [row] [row.atColumn (offset * level)] := by
  cases around with
  | within owns stands _ _ =>
    have target : Target all above above' offset (some (.closer block)) (offset * level) :=
      .closing rfl (owns.find (.inl rfl)) stands
    exact target.laid fits split row_fits

/-- A branch of a block goes back to the level of its head, and what follows it stands under both. -/
lemma Around.branch {b : Branch} (fits : AllFit all) (split : all = above ++ row :: below)
    (row_fits : row.Fits (some (.branch b))) (length : above'.length = above.length)
    (around : Around all above above' offset (some block) level) :
    Passes all offset above above' [row] [row.atColumn (offset * (level - 1))] (some block)
      level := by
  cases around with
  | @within _ opener _ level owns stands _ _ =>
    have target : Target all above above' offset (some (.branch b)) (offset * level) :=
      .closing rfl (owns.find (.inr rfl)) stands
    refine ⟨target.laid fits split row_fits, ?_⟩
    obtain ⟨mark, seen, divides, start⟩ := met_keyword (allFit_above fits split) row_fits
    have stands_mark := standsAt_row fits split row_fits length start (offset * level)
    apply Around.within _ (stands.append _) _ stands_mark
    · rw [seen]
      exact owns.branch divides
    · rw [seen]
      exact findOpener_branch_nil divides

end

/-- A complete block leaves the block around it as it is. -/
lemma Around.block {block : BlockKind} {head : ProgramLine (some (.opener block))}
    {inner : Body block.branch?} {close : ProgramLine (some (.closer block))} {rows' : List Row}
    (fits : AllFit above) (around : Around all above above' offset kind level)
    (laid : Laid all offset above above' ([head.val] ++ (inner.lines ++ [close.val])) rows') :
    Passes all offset above above' ([head.val] ++ (inner.lines ++ [close.val])) rows' kind
      level := by
  refine ⟨laid, ?_⟩
  have fits_head := allFit_append.2 ⟨fits, head.property.allFit⟩
  have fits_inner := allFit_append.2 ⟨fits_head, inner.allFit⟩
  obtain ⟨first, seen_head, opens, _⟩ := met_keyword fits head.property
  obtain ⟨inside, spelled, seen_inside⟩ := met_nest inner fits_head
  obtain ⟨last, seen_close, closes, _⟩ := met_keyword fits_inner close.property
  have seen : met (above ++ ([head.val] ++ (inner.lines ++ [close.val])))
      = last :: (inside.reverse ++ first :: met above) := by
    rw [← List.append_assoc, ← List.append_assoc, seen_close, seen_inside, seen_head]
  apply around.append
  · rw [seen, findOpener_block opens spelled closes (by simp)]
  · intro kind' opener owns
    rw [seen]
    exact owns.block opens spelled closes

/-- Lines go one level to the right for each block around them. -/
lemma Around.passes {next : Option Branch} {nest : Body next} (fits : AllFit all)
    (split : all = above ++ nest.lines ++ below) (length : above'.length = above.length)
    (around : Around all above above' offset kind level) (divided : next ≠ none → kind ≠ none) :
    Passes all offset above above' nest.lines (nest.aligned offset level).lines kind level := by
  induction nest generalizing above above' below kind level with
  | done =>
    refine ⟨rfl, ?_⟩
    rw [Nest.aligned, Nest.lines, List.append_nil, List.append_nil]
    exact around
  | leaf plain rest ih =>
    have split_line : all = above ++ plain.val :: (rest.lines ++ below) := by
      rw [split, Nest.lines, List.append_assoc, List.cons_append]
    have split_rest : all = above ++ [plain.val] ++ rest.lines ++ below := by
      rw [split, Nest.lines, List.append_cons]
    obtain ⟨laid, around_rest⟩ := around.plain fits split_line plain.property
    have passes := ih split_rest (laid.length_append length) around_rest divided
    exact passes.prepend laid
  | block block head inner close rest ih_inner ih_rest =>
    have split_head : all = above ++ head.val :: (inner.lines ++ close.val :: rest.lines ++ below) := by
      rw [split, Nest.lines, List.append_assoc, List.cons_append]
    have split_inner : all = above ++ [head.val] ++ inner.lines
        ++ close.val :: (rest.lines ++ below) := by
      rw [split_head]
      simp
    have split_rest : all = above ++ ([head.val] ++ (inner.lines ++ [close.val])) ++ rest.lines
        ++ below := by
      rw [split_head]
      simp
    have laid_head := around.laid_head fits split_head head.property
    have around_inner : Around all (above ++ [head.val])
        (above' ++ [head.val.atColumn (offset * level)]) offset (some block) (level + 1) :=
      around_head fits split_head head.property length
    -- The closer is met where the head still owns what comes.
    obtain ⟨laid_inner, around_close⟩ := ih_inner split_inner (laid_head.length_append length)
      around_inner fun _ => Option.some_ne_none block
    have laid_close := around_close.laid_close fits split_inner close.property
    obtain ⟨laid, around_rest⟩ := around.block (allFit_above fits split_head)
      (laid_head.append (laid_inner.append laid_close))
    have passes := (ih_rest split_rest (laid.length_append length) around_rest divided).prepend laid
    rw [List.append_assoc, List.append_assoc, List.append_assoc, List.append_assoc] at passes
    exact passes
  | branch b mark rest ih =>
    have split_line : all = above ++ mark.val :: (rest.lines ++ below) := by
      rw [split, Nest.lines, List.append_assoc, List.cons_append]
    have split_rest : all = above ++ [mark.val] ++ rest.lines ++ below := by
      rw [split, Nest.lines, List.append_cons]
    cases kind with
    | none => exact absurd rfl (divided (Option.some_ne_none b))
    | some block =>
      obtain ⟨laid, around_rest⟩ := around.branch fits split_line mark.property length
      have passes := ih split_rest (laid.length_append length) around_rest
        fun _ => Option.some_ne_none block
      exact passes.prepend laid

end

/-- A row at a column is placed as its text. -/
lemma Row.text_placed (row : Row) (column : Nat) :
    (row.atColumn column).placed.text = (row.atColumn column).text := by
  rw [PlacedLine.text, Row.placed, Row.text, Row.atColumn]
  split
  · rfl
  · rw [List.length_replicate]

/-- The rows of an aligned nest are placed as their texts. -/
lemma Nest.text_placed {next : Option Branch} {nest : Body next} {offset level : Nat} {row : Row}
    (mem : row ∈ (nest.aligned offset level).lines) : row.placed.text = row.text := by
  induction nest generalizing level with
  | done => cases mem
  | leaf plain rest ih =>
    rcases List.mem_cons.1 mem with rfl | mem
    · exact Row.text_placed _ _
    · exact ih mem
  | block kind head inner close rest ih_inner ih_rest =>
    rcases List.mem_cons.1 mem with rfl | mem
    · exact Row.text_placed _ _
    rcases List.mem_append.1 mem with mem | mem
    · exact ih_inner mem
    rcases List.mem_cons.1 mem with rfl | mem
    · exact Row.text_placed _ _
    · exact ih_rest mem
  | branch b mark rest ih =>
    rcases List.mem_cons.1 mem with rfl | mem
    · exact Row.text_placed _ _
    · exact ih mem

/-- Lines are written with their line feeds, and nothing is written for the empty line at the end. -/
lemma writeLines_rows {rows rows' : List Row} (fits : AllFit rows)
    (length : rows'.length = rows.length) (written : ∀ row ∈ rows', row.placed.text = row.text)
    (start : Nat) :
    writeLines (linesFrom start (rows.map Row.text ++ [[]])) (rows'.map Row.placed ++ [⟨0, 0, []⟩])
      = source rows' := by
  induction rows generalizing rows' start with
  | nil =>
    obtain rfl := List.length_eq_zero_iff.1 length
    rfl
  | cons row rows ih =>
    obtain ⟨row', rows', rfl⟩ := List.exists_cons_of_length_eq_add_one length
    obtain ⟨keyword, row_fits⟩ := fits row List.mem_cons_self
    have terminator : (Line.mk start row.text).terminator = ['\n'] := by
      rw [Line.terminator, (row_fits.line_parts start).1, List.drop_length, List.nil_append]
    have ih := ih (fun other mem => fits other (List.mem_cons_of_mem _ mem)) (Nat.succ.inj length)
      (fun other mem => written other (List.mem_cons_of_mem _ mem)) (start + row.text.length + 1)
    rw [List.map_cons, List.map_cons, List.cons_append, List.cons_append, linesFrom, writeLines, ih,
      terminator, written row' List.mem_cons_self]
    · rfl
    · intro _ nothing
      exact absurd nothing (by simp)

/-- The layout of a program is that of the aligned one. -/
lemma layout_program (program : Program) (offset : Nat) :
    (Script.ofText (source program.lines)).layout offset
      = (program.aligned offset 0).lines.map Row.placed ++ [⟨0, 0, []⟩] := by
  have fits := program.allFit
  have split : program.lines = [] ++ program.lines ++ [] := by
    rw [List.nil_append, List.append_nil]
  have around : Around program.lines [] [] offset none 0 := by
    apply Around.outside
    rw [met_nil]
    rfl
  obtain ⟨laid, _⟩ := around.passes fits split rfl fun next => absurd rfl next
  rw [Laid, source_nil, List.length_nil, show columns [] = [] from rfl] at laid
  rw [Script.layout, lines_source fits, linesFrom_append, placeLines_append, laid, flatMap_text,
    linesFrom, linesFrom, Script.placeLines, Script.placeLines, placeLine_nil]

/-- A program is indented by its levels: each line of a block stands `offset` columns to the right of
its opener, its branches and its closer. Nothing but the margins changes. -/
theorem reindent_program (program : Program) (offset : Nat) :
    (Script.ofText (source program.lines)).reindent offset
        = source (program.aligned offset 0).lines ∧
      (Script.ofText (source program.lines)).tryReindent offset
        = ((program.aligned offset 0).lines.findSome? fun row => lengthFault? row.margin.length).elim
            (.ok (source (program.aligned offset 0).lines)) .error := by
  have layout := layout_program program offset
  have length : (program.aligned offset 0).lines.length = program.lines.length := by
    have lines := length_placeLines (Script.ofText (source program.lines)) offset []
      (Script.ofText (source program.lines)).lines
    rw [← Script.layout, layout, lines_source program.allFit, length_linesFrom] at lines
    simpa using lines
  have text : (Script.ofText (source program.lines)).reindent offset
      = source (program.aligned offset 0).lines := by
    rw [Script.reindent, layout, lines_source program.allFit]
    exact writeLines_rows program.allFit length (fun _ => Nest.text_placed) 0
  refine ⟨text, ?_⟩
  have fault : Script.layoutFault? ((Script.ofText (source program.lines)).layout offset)
      = (program.aligned offset 0).lines.findSome? fun row => lengthFault? row.margin.length := by
    have no_fault : [(⟨0, 0, []⟩ : PlacedLine)].findSome? PlacedLine.fault? = none := by decide
    have same : PlacedLine.fault? ∘ Row.placed = fun row => lengthFault? row.margin.length := by
      funext row
      rw [Function.comp_apply, PlacedLine.fault?, Row.placed]
    rw [layout, Script.layoutFault?, List.findSome?_append, List.findSome?_map, same, no_fault,
      Option.or_none]
  rw [Script.tryReindent, fault, text]
  cases (program.aligned offset 0).lines.findSome? fun row => lengthFault? row.margin.length with
  | some fault => rfl
  | none => rfl

/-- A `Select` whose branch holds an `If`, with other keywords in comments, strings and groups. -/
def crookedProgram : Program :=
  .block .select ⟨⟨['\t'], "SELECT ; Case".toList⟩, by decide +kernel⟩
    (.branch .caseBranch ⟨⟨[' ', ' ', ' '], "case (Do)".toList⟩, by decide +kernel⟩
      (.block .conditional ⟨⟨[], "If $o.Else 'EndIf'".toList⟩, by decide +kernel⟩
        (.leaf ⟨⟨[' '], "?'Loop'".toList⟩, by decide +kernel⟩
          (.leaf ⟨⟨['\t', ' '], []⟩, by decide +kernel⟩ .done))
        ⟨⟨[' '], "ENDIF".toList⟩, by decide +kernel⟩ .done))
    ⟨⟨[' '], "EndSelect".toList⟩, by decide +kernel⟩ .done

/-- The text of `crookedProgram`. -/
def crookedText : List Char :=
  "\tSELECT ; Case\n   case (Do)\nIf $o.Else 'EndIf'\n ?'Loop'\n\t \n ENDIF\n EndSelect\n".toList

/-- The same text with two columns per level. -/
def straightText : List Char :=
  "SELECT ; Case\ncase (Do)\n  If $o.Else 'EndIf'\n    ?'Loop'\n\n  ENDIF\nEndSelect\n".toList

/-- The crooked text is straightened. -/
theorem reindent_crookedProgram : (Script.ofText crookedText).reindent 2 = straightText := by
  have crooked : source crookedProgram.lines = crookedText := by decide +kernel
  have straight : source (crookedProgram.aligned 2 0).lines = straightText := by decide +kernel
  rw [← crooked, ← straight]
  exact (reindent_program crookedProgram 2).1

end KixScript

import KixScript.Proofs.Access
import KixScript.Proofs.Lexing

/-!
# Formatting never fails

A line is placed against a line above it that is not blank (`base_of_planLine`). So the column that
it needs is there when it is placed, and a script is indented anew by readings that do not miss
(`readReindent_eq`). The script itself is read by a lexer that does not miss either (`read_eq`). What is
left to fail is the value that is given as the columns per level, and the length of a line
(`formatting_total`).
-/

namespace KixScript

/-! ## Base lines -/

/-- A character of words is no blank and no line end. -/
lemma no_space_of_isWordChar {c : Char} (word_char : isWordChar c = true) :
    isBlank c = false ∧ isLineEnd c = false := by
  constructor
  · apply Bool.eq_false_iff.2
    intro blank
    have two : c = ' ' ∨ c = '\t' := by simpa [isBlank] using blank
    rcases two with rfl | rfl
    · cases word_char
    · cases word_char
  · apply Bool.eq_false_iff.2
    intro line_end
    rw [(not_of_isLineEnd line_end).2] at word_char
    cases word_char

section
variable {text : List Char}

/-- What a search for an opener finds is an atom of the text. -/
lemma exists_atom_of_findOpener {seeded : Bool} {waiting : List Keyword} {place : Int}
    {found : Occurrence}
    (finds : findOpener seeded waiting (keywordsBack ((Script.ofText text).atomsBefore place))
      = some found) :
    ∃ atom ∈ (Script.ofText text).scan.atoms, atom.occurrence? = some found := by
  obtain ⟨later, earlier, met⟩ := List.append_of_mem (mem_of_findOpener finds)
  obtain ⟨before, atom, behind, split, is_keyword, _⟩ := keywordsBack_resume met
  have mem : atom ∈ (Script.ofText text).atomsBefore place := by
    rw [split]
    exact List.mem_append_right _ List.mem_cons_self
  exact ⟨atom, (List.mem_filter.1 mem).1, is_keyword⟩

/-- Alignment is with a keyword of the script. -/
lemma exists_atom_of_alignment {start levels : Nat} {opener : Occurrence}
    (aligned : (Script.ofText text).alignment start = some (opener, levels)) :
    ∃ atom ∈ (Script.ofText text).scan.atoms, atom.occurrence? = some opener := by
  have around : ∀ level : Occurrence → Nat,
      ((Script.ofText text).enclosingOpener start).map (fun opener => (opener, level opener))
        = some (opener, levels) →
      ∃ atom ∈ (Script.ofText text).scan.atoms, atom.occurrence? = some opener := by
    intro level inside
    obtain ⟨other, finds, same⟩ := Option.map_eq_some_iff.1 inside
    obtain rfl : other = opener := congrArg Prod.fst same
    exact exists_atom_of_findOpener finds
  rw [Script.alignment] at aligned
  cases leads : (Script.ofText text).keywordAt start with
  | none =>
    rw [leads] at aligned
    exact around _ aligned
  | some leading =>
    rw [leads] at aligned
    dsimp only at aligned
    split at aligned
    · rename_i closes
      cases belongs : (Script.ofText text).matchingOpener start with
      | none =>
        rw [belongs] at aligned
        exact around _ aligned
      | some other =>
        rw [belongs] at aligned
        obtain rfl : other = opener := congrArg Prod.fst (Option.some.inj aligned)
        rw [Script.matchingOpener, leads] at belongs
        dsimp only at belongs
        rw [if_pos (Bool.and_eq_true_iff.1 closes).2] at belongs
        exact exists_atom_of_findOpener belongs
    · exact around _ aligned

/-- The line of a keyword is not blank. -/
lemma exists_line_of_occurrence {atom : Atom} {found : Occurrence}
    (mem : atom ∈ (Script.ofText text).scan.atoms) (is_keyword : atom.occurrence? = some found) :
    ∃ line, (Script.ofText text).lines[(Script.ofText text).lineOf found.start]? = some line ∧
      line.body ≠ [] := by
  cases atom with
  | opening start partner => cases is_keyword
  | closing start partner => cases is_keyword
  | word word =>
    have start := (Atom.span_of_occurrence? is_keyword).1
    obtain ⟨piece, mem, here⟩ := List.mem_filterMap.1 (word_mem_atoms.1 mem)
    obtain ⟨is_word, word_start, _⟩ := Piece.word?_eq_some here
    obtain ⟨before, behind, joint, place⟩ := exists_of_mem_placed mem
    rw [is_word] at joint
    have reads := (lexemes_eq_iff.1 joint).1.reads
    have front : found.start = (written before).length := by
      rw [start, Atom.start, word_start, Piece.start, place, Cursor.start_after_offset]
    have no_end : ∀ c ∈ word.text, isLineEnd c = false :=
      fun c mem => (no_space_of_isWordChar (reads.2.1 c mem)).2
    obtain ⟨line, on_line, _, front', back', same, _⟩ :=
      exists_line_of_run (text_of_joint joint) reads.1 no_end
    refine ⟨line, ?_, ?_⟩
    · rw [front]
      exact on_line
    · intro blank
      obtain ⟨c, more, token⟩ := List.exists_cons_of_ne_nil reads.1
      have in_token : c ∈ word.text := token ▸ List.mem_cons_self
      have in_line : c ∈ line.text := by
        rw [same]
        exact List.mem_append_right _ (List.mem_append_left _ in_token)
      have is_blank := List.dropWhile_eq_nil_iff.1 blank c in_line
      rw [(no_space_of_isWordChar (reads.2.1 c in_token)).1] at is_blank
      cases is_blank

/-- A line is placed against a line above it that is not blank. -/
lemma base_of_planLine {number base : Nat} {line : Line} {levels : Int}
    (found : (Script.ofText text).lines[number]? = some line)
    (plan : (Script.ofText text).planLine line = .indent (some base) levels) :
    base < number ∧ ∃ above, (Script.ofText text).lines[base]? = some above ∧ above.body ≠ [] := by
  obtain ⟨rest, stands⟩ := exists_standsIn found
  have above := base_lt_of_planLine stands plan
  rw [count_textAbove found] at above
  refine ⟨above, ?_⟩
  rw [Script.planLine, Script.plan] at plan
  split at plan
  · cases aligned : (Script.ofText text).alignment line.firstNonblank with
    | none =>
      rw [aligned] at plan
      cases plan
    | some alignment =>
      obtain ⟨opener, level⟩ := alignment
      rw [aligned] at plan
      obtain rfl : (Script.ofText text).lineOf opener.start = base :=
        Option.some.inj (Plan.indent.inj plan).1
      obtain ⟨atom, mem, is_keyword⟩ := exists_atom_of_alignment aligned
      exact exists_line_of_occurrence mem is_keyword
  · cases plan

end

/-! ## Columns and texts -/

section
variable {text : List Char} {number : Nat} {line : Line}
  (found : (Script.ofText text).lines[number]? = some line)
include found

/-- The indentation is read without leaving a table. -/
lemma readIndentation_eq : (Script.ofText text).readIndentation number = some line.indentation := by
  obtain ⟨rest, stands⟩ := exists_standsIn found
  have slice := slice_between (stands.body_parts.trans (List.append_assoc _ _ _))
  rw [← stands.start] at slice
  rw [Script.readIndentation, lineStarts_eq found, readFirstNonblank_eq found]
  exact congrArg (fun blanks => some (columnAfter 0 blanks)) slice

/-- The column that a line should be indented to is found. -/
lemma readColumn_eq (offset : Nat) :
    (Script.ofText text).readColumn offset number
      = some ((Script.ofText text).columnFor line.bounds offset) := by
  rw [Script.readColumn, readPlan_eq found, Script.columnFor, bounds_firstNonblank found,
    bounds_lead found, ← Script.planLine]
  cases plan : (Script.ofText text).planLine line with
  | keep =>
    show (Script.ofText text).readIndentation number = some _
    rw [readIndentation_eq found, LineBounds.indentation, bounds_blanks found]
    rfl
  | indent base levels =>
    cases base with
    | none => rfl
    | some base =>
      obtain ⟨_, above, at_base, _⟩ := base_of_planLine found plan
      show ((Script.ofText text).readIndentation base).bind _ = _
      rw [readIndentation_eq at_base]
      show _ = some (columnAt offset ((Script.ofText text).indentationOf base) levels)
      rw [Script.indentationOf, at_base]
      rfl

/-- The terminator is read without leaving a table. -/
lemma readTerminator_eq (more : number + 1 < (Script.ofText text).lineCount) :
    (Script.ofText text).readTerminator number = some line.terminator := by
  obtain ⟨rest, stands⟩ := exists_standsIn found
  have some_rest : rest ≠ [] := mt (rest_eq_nil_iff found stands).1 (Nat.ne_of_lt more)
  obtain ⟨c, below, rfl⟩ := List.exists_cons_of_ne_nil some_rest
  obtain rfl := stands.ended c rfl
  have parts : text = (textAbove text number ++ line.text) ++ (line.terminator ++ below) := by
    rw [Line.terminator, ← Line.ending, List.append_assoc, List.append_assoc, List.singleton_append]
    exact stands.text_parts
  have slice := slice_between parts
  have stop : (textAbove text number ++ line.text).length = line.stop := by
    rw [List.length_append, ← stands.start, Line.stop]
  have next : line.stop + line.terminator.length = line.start + line.row.length + 1 := by
    rw [Line.stop, Line.terminator, ← Line.ending, ← line.text_append_ending, List.length_append,
      List.length_append, List.length_singleton]
    omega
  rw [stop, next] at slice
  rw [Script.readTerminator, if_pos more, readStop_eq found, lineStarts_succ found more]
  exact congrArg some slice

/-- A line is placed if the columns of all lines above are there. -/
lemma readPlaced_eq (offset : Nat) {columns : List Nat} (above : number ≤ columns.length) :
    (Script.ofText text).readPlaced offset columns number
      = some ((Script.ofText text).placeLine offset columns line) := by
  obtain ⟨rest, stands⟩ := exists_standsIn found
  have slice := slice_between stands.text_parts
  rw [← stands.start, ← Line.stop] at slice
  rw [Script.readPlaced, lineStarts_eq found, readStop_eq found, readPlan_eq found,
    Script.placeLine]
  cases plan : (Script.ofText text).planLine line with
  | keep =>
    show ((Script.ofText text).readIndentation number).bind _ = _
    rw [readIndentation_eq found]
    exact congrArg (fun body => some (PlacedLine.mk line.indentation 0 body)) slice
  | indent base levels =>
    have body : ((Script.ofText text).slice line.start line.stop).dropWhile isBlank
        = line.body := congrArg (List.dropWhile isBlank) slice
    cases base with
    | none =>
      show (if (List.dropWhile isBlank _).isEmpty then _ else _) = _
      rw [body]
      dsimp only
      split <;> rfl
    | some base =>
      have bound := (base_of_planLine found plan).1
      have column := List.getElem?_eq_getElem (Nat.lt_of_lt_of_le bound above)
      show (columns[base]?).bind _ = _
      rw [column, Option.bind_some]
      show (if (List.dropWhile isBlank _).isEmpty then _ else _) = _
      rw [body]
      dsimp only [Option.elim_some]
      rw [column]
      split <;> rfl

end

section
variable {text : List Char}

/-- Line by line, the lines from some line on are read and written as they are placed. -/
lemma readLines_eq (offset : Nat) {columns : List Nat} {count : Nat}
    (left : columns.length + count = (Script.ofText text).lineCount) :
    (Script.ofText text).readLines offset columns count
      = some (writeLines ((Script.ofText text).lines.drop columns.length)
          ((Script.ofText text).placeLines offset columns
            ((Script.ofText text).lines.drop columns.length))) := by
  -- As many columns are known as lines have been read, so the next line has that number.
  induction count generalizing columns with
  | zero =>
    have nothing : (Script.ofText text).lines.drop columns.length = [] :=
      List.drop_eq_nil_of_le (Nat.le_of_eq left.symm)
    rw [nothing]
    rfl
  | succ count ih =>
    have bound : columns.length < (Script.ofText text).lines.length := by
      rw [← Script.lineCount]
      omega
    have found := List.getElem?_eq_getElem bound
    rw [Script.readLines, readPlaced_eq found offset (Nat.le_refl _),
      List.drop_eq_getElem_cons bound, Script.placeLines]
    generalize (Script.ofText text).lines[columns.length] = line at found
    generalize (Script.ofText text).placeLine offset columns line = placed
    have next : (columns ++ [placed.column]).length = columns.length + 1 := by
      rw [List.length_append, List.length_singleton]
    have below : (Script.ofText text).readLines offset (columns ++ [placed.column]) count = _ :=
      ih (by omega)
    rw [next] at below
    show ((Script.ofText text).readTerminator columns.length).bind (fun terminator =>
      ((Script.ofText text).readLines offset (columns ++ [placed.column]) count).bind _) = _
    rw [below]
    by_cases more : columns.length + 1 < (Script.ofText text).lineCount
    · rw [readTerminator_eq found more, List.drop_eq_getElem_cons more]
      rfl
    · have last : (Script.ofText text).lines.drop (columns.length + 1) = [] :=
        List.drop_eq_nil_of_le (Nat.le_of_not_lt more)
      have alone : placed.text ++ [] ++ [] = placed.text := by rw [List.append_nil, List.append_nil]
      rw [Script.readTerminator, if_neg more, last]
      exact congrArg some alone

/-- Indenting a script anew reads nothing that is not there. -/
lemma readReindent_eq (offset : Nat) :
    (Script.ofText text).readReindent offset = some ((Script.ofText text).reindent offset) :=
  readLines_eq offset (Nat.zero_add _)

end

/-! ## Formatting -/

/-- Of the values for the columns per level, an attempt takes just the integers that are not negative.
It tells the refusal of another one if the value can be printed. -/
structure RefusesOthers {α : Type} (attempt : Nat → Value → Except LayoutError α) : Prop where
  refused : ∀ room value, (∃ error, attempt room value = .error (.offset (.refused error))) ↔
    (∀ columns : Nat, value ≠ .integer columns) ∧ value.printFault? room = none
  untold : ∀ room value fault, attempt room value = .error (.offset (.untold fault)) ↔
    (∀ columns : Nat, value ≠ .integer columns) ∧ value.printFault? room = some fault

/-- Whatever checks the offset first, and finds no fault with it later, refuses what the check does. -/
lemma refusesOthers_of_check {α : Type} (rest : Nat → Except LayoutError α)
    (accepts : ∀ columns fault, rest columns ≠ .error (.offset fault)) :
    RefusesOthers fun room value => (checkOffset room value).mapError .offset >>= rest := by
  have checks : ∀ room value fault, (checkOffset room value).mapError .offset >>= rest
      = .error (.offset fault) ↔ checkOffset room value = .error fault := by
    intro room value fault
    cases checkOffset room value with
    | error other =>
      show Except.error (LayoutError.offset other) = _ ↔ _
      rw [Except.error.injEq, LayoutError.offset.injEq, Except.error.injEq]
    | ok columns => exact iff_of_false (accepts columns fault) fun refused => by cases refused
  constructor
  · intro room value
    simp only [checks]
    exact checkOffset_refused_iff
  · intro room value fault
    rw [checks]
    exact checkOffset_untold_iff

section
variable (script : Script)

/-- With columns per level, formatting is indenting anew. -/
lemma format_integer (room columns : Nat) :
    script.format room (.integer columns) = (script.tryReindent columns).mapError .length := by
  have accepted : checkOffset room (.integer columns) = .ok columns := checkOffset_ok rfl
  rw [Script.format, accepted]
  rfl

/-- Formatting refuses the values that are no columns per level. -/
lemma format_refusesOthers : RefusesOthers script.format := by
  apply refusesOthers_of_check
  intro columns fault
  cases script.tryReindent columns <;> exact fun refused => by cases refused

/-- Asking for the column of a line refuses the values that are no columns per level. -/
lemma columnOf_refusesOthers (number : Int) :
    RefusesOthers fun room => script.columnOf room number := by
  apply refusesOthers_of_check
  intro columns fault
  cases script.bounds number <;> exact fun refused => by cases refused

end

/-- What formatting a text with some columns per level comes to. All that it reads is there, from the
first character on, and a text is returned unless a line would have no length. The column of each line
is returned too. -/
structure FormatsBy (text : List Char) (columns : Nat) : Prop where
  reads : ((Script.read text).bind fun script => script.readReindent columns)
    = some ((Script.ofText text).reindent columns)
  returns : (∀ line ∈ (Script.ofText text).layout columns, line.indent < Nat.pow 2 63) →
    ∀ room, (Script.ofText text).format room (.integer columns)
      = .ok ((Script.ofText text).reindent columns)
  too_long : ∀ line ∈ (Script.ofText text).layout columns, Nat.pow 2 63 ≤ line.indent →
    ∀ room, (Script.ofText text).format room (.integer columns) = .error (.length .notALength)
  column : ∀ number : Nat, number < (Script.ofText text).lineCount → isIndex number = true →
    ∃ column, ((Script.read text).bind fun script => script.readColumn columns number) = some column ∧
      ∀ room, (Script.ofText text).columnOf room number (.integer columns) = .ok column

/-- Every text is formatted by what is read of it. -/
lemma formatsBy (text : List Char) (columns : Nat) : FormatsBy text columns where
  reads := by
    rw [read_eq, Option.bind_some]
    exact readReindent_eq columns
  returns := by
    intro short room
    rw [format_integer, tryReindent_short short]
    rfl
  too_long := by
    intro line mem long room
    rw [format_integer, tryReindent_long mem long]
    rfl
  column := by
    intro number bound index
    have found := List.getElem?_eq_getElem bound
    refine ⟨_, ?_, fun room => columnOf_eq found index room columns⟩
    rw [read_eq, Option.bind_some]
    exact readColumn_eq found columns

/-- All that formatting reads is there, whatever the text. It refuses exactly what is no integer or is
negative, and else returns a result, but for lines without a length. -/
theorem formatting_total (text : List Char) :
    RefusesOthers (Script.ofText text).format ∧
    (∀ number, RefusesOthers fun room => (Script.ofText text).columnOf room number) ∧
    (∀ columns, FormatsBy text columns) ∧
    ∀ number line base levels, (Script.ofText text).lines[number]? = some line →
      (Script.ofText text).planLine line = .indent (some base) levels →
      base < number ∧ ∃ above, (Script.ofText text).lines[base]? = some above ∧ above.body ≠ [] :=
  ⟨format_refusesOthers _, columnOf_refusesOthers _, formatsBy text,
    fun _ _ _ _ found plan => base_of_planLine found plan⟩

/-- A stray closer, a blank line and a group inside of a block. -/
def closingText : List Char :=
  "Loop\n\nIf (\n)x".toList

/-- The last line is placed against the third one. If a level has 2^63 columns, then it has no length;
and a number below zero with 4301 digits is refused without telling. -/
theorem formatting_of_closingText :
    (Script.ofText closingText).planLine ⟨11, [')', 'x']⟩ = .indent (some 2) 1 ∧
      (∃ above, (Script.ofText closingText).lines[2]? = some above ∧ above.body ≠ []) ∧
      (Script.ofText closingText).format 9 (.integer 3)
        = .ok ((Script.ofText closingText).reindent 3) ∧
      (Script.ofText closingText).format 9 (.integer (Nat.pow 2 63 : Nat))
        = .error (.length .notALength) ∧
      (Script.ofText closingText).format 9 (.integer (-(Nat.pow 10 4300 : Nat)))
        = .error (.offset (.untold .tooManyDigits)) := by
  obtain ⟨refuses, _, formats, bases⟩ := formatting_total closingText
  have found : (Script.ofText closingText).lines[3]? = some ⟨11, [')', 'x']⟩ := by decide +kernel
  have plan : (Script.ofText closingText).planLine ⟨11, [')', 'x']⟩ = .indent (some 2) 1 := by
    decide +kernel
  have fits : Script.layoutFault? ((Script.ofText closingText).layout 3) = none := by decide +kernel
  have long : ⟨Nat.pow 2 63, Nat.pow 2 63, [')', 'x']⟩
      ∈ (Script.ofText closingText).layout (Nat.pow 2 63) := by
    decide +kernel
  have below : (-(Nat.pow 10 4300 : Nat) : Int) < 0 := by decide +kernel
  refine ⟨plan, (bases 3 _ 2 1 found plan).2, ?_, ?_, ?_⟩
  · exact (formats 3).returns (layoutFault?_eq_none.1 fits) 9
  · exact (formats _).too_long _ long (Nat.le_refl _) 9
  · refine (refuses.untold 9 _ _).2 ⟨?_, by decide +kernel⟩
    intro columns same
    rw [Value.integer.inj same] at below
    exact absurd below (Int.not_lt.2 (Int.natCast_nonneg columns))

end KixScript

import KixScript.Proofs.Canonical
import KixScript.Proofs.Positions
import KixScript.Workspace

/-!
# Formatting documents

A document is formatted by one edit whose range reaches from its first place to its last one
(`spans_replacement`), so that what the edit leaves is the new text alone (`Range.Spans.apply`). A text
that was indented anew stays as it is (`layout_again`), and then there is no edit
(`formatting_settles`).
-/

namespace KixScript

/-- The columns per level that a document is formatted with: the number that is asked for, or four if
it is refused and this can be told. -/
inductive ColumnsFor (room : Nat) (offset : Value) : Nat → Prop where
  | asked {columns : Nat} (accepted : indentOffset offset = .ok columns) :
      ColumnsFor room offset columns
  | usual {error : OffsetError} (refused : indentOffset offset = .error error)
      (told : error.printFault? room = none) : ColumnsFor room offset 4

/-- A range that reaches over all of a text, from one place of it to another. -/
structure Range.Spans (range : Range) (text : List Char) : Prop where
  start_mem : range.start ∈ (Script.ofText text).places
  stop_mem : range.stop ∈ (Script.ofText text).places
  start : offsetOf text range.start = 0
  stop : offsetOf text range.stop = text.length

/-- The text that an edit leaves: what is before its range, the new text, and what is behind it. -/
def Edit.apply (edit : Edit) (text : List Char) : List Char :=
  text.take (offsetOf text edit.range.start) ++ edit.text
    ++ text.drop (offsetOf text edit.range.stop)

/-- An edit of the whole text leaves its own text. -/
lemma Range.Spans.apply {edit : Edit} {text : List Char} (spans : edit.range.Spans text) :
    edit.apply text = edit.text := by
  rw [Edit.apply, spans.start, spans.stop, List.take_zero, List.drop_length, List.nil_append,
    List.append_nil]

/-- The range from the first place to the last one spans the text. -/
lemma spans_replacement (text : List Char) :
    Range.Spans ⟨⟨0, 0⟩, (Script.ofText text).position text.length⟩ text := by
  have first : (Script.ofText text).position 0 = ⟨0, 0⟩ :=
    @position_of_row [] nofun [] List.not_mem_nil text
  refine ⟨?_, position_mem_places (Nat.le_refl _), rfl, offsetOf_position (Nat.le_refl _)⟩
  rw [← first]
  exact position_mem_places (Nat.zero_le _)

/-- A document with other contents is replaced by one edit. -/
lemma exists_replacement {text result : List Char} (other : result ≠ text) :
    ∃ edit, (Script.ofText text).replacement result = some edit ∧ edit.range.Spans text ∧
      edit.apply text = result := by
  have spans := spans_replacement text
  refine ⟨_, if_neg other, spans, ?_⟩
  exact Range.Spans.apply (show Range.Spans (Edit.range ⟨_, result⟩) text from spans)

/-- A text is not replaced by itself. -/
lemma replacement_self (text : List Char) : (Script.ofText text).replacement text = none :=
  if_pos rfl

/-! ## Requests -/

section
variable {room columns : Nat} {offset : Value}

/-- With columns per level, a document is replaced by its text indented anew. -/
lemma ColumnsFor.formatting_eq (chosen : ColumnsFor room offset columns) (script : Script) :
    script.formatting room offset
      = ((script.tryReindent columns).mapError .length).map script.replacement := by
  rw [Script.formatting]
  cases chosen with
  | asked accepted =>
    rw [checkOffset_ok accepted]
    rfl
  | usual refused told =>
    rw [checkOffset_refused refused told]
    rfl

/-- A refusal that cannot be told is a failure. -/
lemma formatting_untold {error : OffsetError} {fault : PrintFault}
    (refused : indentOffset offset = .error error) (unprintable : error.printFault? room = some fault)
    (script : Script) : script.formatting room offset = .error (.untold fault) := by
  rw [Script.formatting, checkOffset_untold refused unprintable]
  rfl

variable {workspace : Workspace} {name : String} {text : List Char}
  (stored : workspace.text? name = some text)
include stored

/-- A fault is answered, and the workspace stays. -/
lemma handle_format_error {fault : FormattingFault}
    (fails : (Script.ofText text).formatting room offset = .error fault) :
    workspace.handle room (.format name offset) = (.failed fault, workspace) := by
  rw [Workspace.handle, Workspace.ask, stored]
  dsimp only
  rw [fails]

/-- An edit is answered, and the workspace stays. -/
lemma handle_format_ok {edit : Option Edit}
    (formats : (Script.ofText text).formatting room offset = .ok edit) :
    workspace.handle room (.format name offset) = (.edits edit.toList, workspace) := by
  rw [Workspace.handle, Workspace.ask, stored]
  dsimp only
  rw [formats]

/-- A document with a line that would have no length is not formatted. -/
lemma handle_format_long (chosen : ColumnsFor room offset columns) {line : PlacedLine}
    (mem : line ∈ (Script.ofText text).layout columns) (long : Nat.pow 2 63 ≤ line.indent) :
    workspace.handle room (.format name offset) = (.failed (.length .notALength), workspace) := by
  apply handle_format_error stored
  rw [chosen.formatting_eq, tryReindent_long mem long]
  rfl

/-- A document whose lines all have lengths is replaced by its text indented anew. -/
lemma handle_format_short (chosen : ColumnsFor room offset columns)
    (short : ∀ line ∈ (Script.ofText text).layout columns, line.indent < Nat.pow 2 63) :
    workspace.handle room (.format name offset)
      = (.edits ((Script.ofText text).replacement ((Script.ofText text).reindent columns)).toList,
          workspace) := by
  apply handle_format_ok stored
  rw [chosen.formatting_eq, tryReindent_short short]
  rfl

end

/-- A stored text is handed back. -/
lemma text?_store (workspace : Workspace) (name : String) (text : List Char) :
    (workspace.store name text).text? name = some text :=
  List.lookup_cons_self

/-- What was indented anew comes out the same again, if no carriage return was lost. -/
lemma layout_again {text : List Char} (no_return : text.getLast? ≠ some '\r') (columns : Nat) :
    (Script.ofText ((Script.ofText text).reindent columns)).layout columns
        = (Script.ofText text).layout columns ∧
      (Script.ofText ((Script.ofText text).reindent columns)).reindent columns
        = (Script.ofText text).reindent columns := by
  have kept := sameContents_reindent text columns
  rw [lostReturn, if_neg no_return, List.append_nil] at kept
  exact ⟨(kept.sameLines.layout_eq columns).symm, (kept.sameLines.reindent_eq columns).symm⟩

/-- Formatting a stored document answers with no edit if indentation changes nothing, and else with one
edit of all of its text, which leaves the text indented. That text stays, unless the first one ended in
a carriage return. A fault is the only other answer. -/
theorem formatting_settles (room : Nat) (workspace : Workspace) {name : String} {text : List Char}
    (stored : workspace.text? name = some text) (offset : Value) :
    (∀ error fault, indentOffset offset = .error error → error.printFault? room = some fault →
      workspace.handle room (.format name offset) = (.failed (.untold fault), workspace)) ∧
    ∀ columns, ColumnsFor room offset columns →
      (∀ line ∈ (Script.ofText text).layout columns, Nat.pow 2 63 ≤ line.indent →
        workspace.handle room (.format name offset)
          = (.failed (.length .notALength), workspace)) ∧
      ((∀ line ∈ (Script.ofText text).layout columns, line.indent < Nat.pow 2 63) →
        ∃ edits, workspace.handle room (.format name offset) = (.edits edits, workspace) ∧
          (edits = [] ↔ (Script.ofText text).reindent columns = text) ∧
          ((Script.ofText text).reindent columns ≠ text → ∃ edit, edits = [edit] ∧
            edit.range.Spans text ∧ edit.apply text = (Script.ofText text).reindent columns) ∧
          (text.getLast? ≠ some '\r' →
            ((workspace.handle room (.store name ((Script.ofText text).reindent columns))).2.handle room
              (.format name offset)).1 = .edits [])) := by
  refine ⟨?_, fun columns chosen => ⟨fun line => handle_format_long stored chosen, ?_⟩⟩
  · intro error fault refused unprintable
    exact handle_format_error stored (formatting_untold refused unprintable _)
  · intro short
    refine ⟨_, handle_format_short stored chosen short, ?_, ?_, ?_⟩
    · by_cases same : (Script.ofText text).reindent columns = text
      · rw [same, replacement_self]
        exact ⟨fun _ => rfl, fun _ => rfl⟩
      · obtain ⟨edit, replaced, _⟩ := exists_replacement same
        rw [replaced]
        exact iff_of_false (List.cons_ne_nil _ _) same
    · intro other
      obtain ⟨edit, replaced, spans, applied⟩ := exists_replacement other
      rw [replaced]
      exact ⟨edit, rfl, spans, applied⟩
    · intro no_return
      obtain ⟨layout, again⟩ := layout_again no_return columns
      rw [← layout] at short
      have settled := handle_format_short (text?_store workspace name _) chosen short
      rw [again, replacement_self] at settled
      exact congrArg Prod.fst settled

/-- A workspace with a document whose last line is not ended. -/
def slantedWorkspace : Workspace :=
  Workspace.empty.store "a.kix" "\tIf a\r\nb\n  EndIf".toList

/-- A negative offset gives way to four columns. One with too many digits to be told does not, and nor
does one that is not refused but leaves the second line without a length. -/
theorem formatting_of_slantedWorkspace :
    (slantedWorkspace.text? "a.kix" = some "\tIf a\r\nb\n  EndIf".toList ∧
      ColumnsFor 1 (.integer (-1)) 4 ∧
      ∃ edit, slantedWorkspace.handle 1 (.format "a.kix" (.integer (-1)))
          = (.edits [edit], slantedWorkspace) ∧
        edit.range.Spans "\tIf a\r\nb\n  EndIf".toList ∧
        edit.apply "\tIf a\r\nb\n  EndIf".toList = "If a\r\n    b\nEndIf".toList ∧
        ((slantedWorkspace.handle 1 (.store "a.kix" "If a\r\n    b\nEndIf".toList)).2.handle 1
          (.format "a.kix" (.integer (-1)))).1 = .edits []) ∧
    slantedWorkspace.handle 1 (.format "a.kix" (.integer (-(Nat.pow 10 4300 : Nat))))
      = (.failed (.untold .tooManyDigits), slantedWorkspace) ∧
    slantedWorkspace.handle 1 (.format "a.kix" (.integer (Nat.pow 2 63 : Nat)))
      = (.failed (.length .notALength), slantedWorkspace) := by
  have stored : slantedWorkspace.text? "a.kix" = some "\tIf a\r\nb\n  EndIf".toList := by
    decide +kernel
  have chosen : ColumnsFor 1 (.integer (-1)) 4 := .usual rfl (by decide +kernel)
  have text : (Script.ofText "\tIf a\r\nb\n  EndIf".toList).reindent 4
      = "If a\r\n    b\nEndIf".toList := by
    decide +kernel
  have short : ∀ line ∈ (Script.ofText "\tIf a\r\nb\n  EndIf".toList).layout 4,
      line.indent < Nat.pow 2 63 := layoutFault?_eq_none.1 (by decide +kernel)
  have other : "If a\r\n    b\nEndIf".toList ≠ "\tIf a\r\nb\n  EndIf".toList := by decide +kernel
  have refused : indentOffset (.integer (-(Nat.pow 10 4300 : Nat)))
      = .error (.negative (-(Nat.pow 10 4300 : Nat))) := indentOffset_negative (by decide +kernel)
  have long : ⟨Nat.pow 2 63, Nat.pow 2 63, ['b']⟩
      ∈ (Script.ofText "\tIf a\r\nb\n  EndIf".toList).layout (Nat.pow 2 63) := by
    decide +kernel
  refine ⟨⟨stored, chosen, ?_⟩, ?_, ?_⟩
  · obtain ⟨edits, handled, _, replaced, settled⟩ :=
      ((formatting_settles 1 slantedWorkspace stored _).2 4 chosen).2 short
    rw [text] at replaced settled
    obtain ⟨edit, rfl, spans, applied⟩ := replaced other
    exact ⟨edit, handled, spans, applied, settled (by decide +kernel)⟩
  · exact (formatting_settles 1 slantedWorkspace stored _).1 _ _ refused (by decide +kernel)
  · exact ((formatting_settles 1 slantedWorkspace stored _).2 _ (.asked rfl)).1 _ long (Nat.le_refl _)

end KixScript

import KixScript.Proofs.Cover
import KixScript.Proofs.Views

/-!
# Malformed macros

A head of a token that is no macro holds no `@` and no warning (`Fragment.SimpleHead.no_remark`), and
one that is a macro has the remark that its run deserves (`macroRemark_of_macroHead`). Head by head, a
word has the remarks about its sigils (`remarks_of_token`), and piece by piece a script has those about
all sigils of its code (`warnings_remarks`).
-/

namespace KixScript

/-! ## Remarks about macros -/

namespace Script

/-- Whether an `@` stands at an offset that lies in no comment or string. -/
def isMacroSigil (script : Script) (offset : Nat) : Bool :=
  script.text[offset]? == some '@' &&
    script.scan.regions.all fun region => !(region.start ≤ offset && offset < region.stop)

/-- The offsets of the macros, in order. -/
def macroSigils (script : Script) : List Nat :=
  (List.range script.length).filter script.isMacroSigil

/-- A warning about `length` characters from an offset on. -/
def remarkAt (script : Script) (offset : Nat) (length : Int) (message : String) : Warning :=
  { message
    line := (script.position offset).line + 1
    column := (script.position offset).column + 1
    length }

end Script

/-- What there is to say about the macro at an offset, with a run of characters behind its `@`. -/
inductive MacroRemark (script : Script) (offset : Nat) (run : List Char) : List Warning → Prop where
  | known (whole : String.ofList (lower run) ∈ macroNames) : MacroRemark script offset run []
  | trailing {name : String} (other : String.ofList (lower run) ∉ macroNames)
      (longest : LongestOf macroNames (lower run) name) :
    MacroRemark script offset run
      [script.remarkAt (offset + 1 + name.length) ((run.length : Int) - name.length)
        ("characters '" ++ String.ofList (run.drop name.length) ++ "' after macro are ignored")]
  | unknown (no_lead : ∀ name ∈ macroNames, ¬ name.toList <+: lower run) :
    MacroRemark script offset run
      [script.remarkAt offset (1 + (run.length : Int))
        ("unknown macro '" ++ String.ofList ('@' :: run) ++ "' evaluates to 0")]

/-- The warnings that are the remarks about some offsets, in turn. -/
inductive Remarks (script : Script) : List Nat → List Warning → Prop where
  | nil : Remarks script [] []
  | cons {offset : Nat} {offsets : List Nat} {remark warnings : List Warning}
      (first : MacroRemark script offset (runBehind script.text offset) remark)
      (others : Remarks script offsets warnings) :
    Remarks script (offset :: offsets) (remark ++ warnings)

/-- A macro has nothing said about it if it is known. -/
lemma MacroRemark.eq_nil_iff {script : Script} {offset : Nat} {run : List Char}
    {remark : List Warning} (remarked : MacroRemark script offset run remark) :
    remark = [] ↔ String.ofList (lower run) ∈ macroNames := by
  cases remarked with
  | known whole => exact ⟨fun _ => whole, fun _ => rfl⟩
  | trailing other longest => exact ⟨nofun, fun whole => absurd whole other⟩
  | unknown no_lead => exact ⟨nofun, fun whole => absurd (ofList_leads _) (no_lead _ whole)⟩

namespace Remarks
variable {script : Script}

/-- Remarks about two lists of offsets stand one behind the other. -/
lemma append {offsets offsets' : List Nat} {warnings warnings' : List Warning}
    (remarks : Remarks script offsets warnings) (remarks' : Remarks script offsets' warnings') :
    Remarks script (offsets ++ offsets') (warnings ++ warnings') := by
  induction remarks with
  | nil => exact remarks'
  | cons first others ih =>
    rw [List.append_assoc]
    exact .cons first ih

/-- Remarks about many lists of offsets stand one behind the other. -/
lemma flatMap {α : Type} {sigils : α → List Nat} {warnings : α → List Warning} {items : List α}
    (remarks : ∀ item ∈ items, Remarks script (sigils item) (warnings item)) :
    Remarks script (items.flatMap sigils) (items.flatMap warnings) := by
  induction items with
  | nil => exact .nil
  | cons item items ih =>
    obtain ⟨first, others⟩ := List.forall_mem_cons.1 remarks
    exact first.append (ih others)

/-- Nothing is said if every macro is known. -/
lemma eq_nil_iff {offsets : List Nat} {warnings : List Warning}
    (remarks : Remarks script offsets warnings) :
    warnings = [] ↔ ∀ offset ∈ offsets,
      String.ofList (lower (runBehind script.text offset)) ∈ macroNames := by
  induction remarks with
  | nil => exact ⟨fun _ => nofun, fun _ => rfl⟩
  | cons first others ih =>
    rw [List.append_eq_nil_iff, List.forall_mem_cons, first.eq_nil_iff, ih]

end Remarks

section
variable {text front back : List Char}

/-- The name of a macro is the run behind its sigil. -/
lemma runBehind_eq {run : List Char} (parts : text = front ++ ('@' :: (run ++ back)))
    (is_run : IsRun run back) : runBehind text front.length = run := by
  have behind : text.drop (front.length + 1) = run ++ back := by
    rw [parts, ← List.drop_drop, List.drop_left]
    rfl
  rw [runBehind, behind, is_run.takeWhile_append]

/-- The warnings about the parts of some fragments. -/
def Script.warningsFrom (script : Script) (start : Nat) (fragments : List Fragment) : List Warning :=
  ((partsFrom start fragments).filter Part.warning).map script.warningFor

/-- A fragment that gives no warning is skipped. -/
lemma warningsFrom_cons_quiet (script : Script) {role : FragmentRole} (quiet : role.warns = false)
    (start : Nat) (middle : List Char) (tokenClass : TokenClass) (rest : List Fragment) :
    script.warningsFrom start (⟨middle, tokenClass, role⟩ :: rest)
      = script.warningsFrom (start + middle.length) rest := by
  have passed : ¬ Part.warning ⟨start, start + middle.length, tokenClass, role⟩ = true :=
    ne_true_of_eq_false quiet
  rw [Script.warningsFrom, partsFrom, List.filter_cons_of_neg passed]
  rfl

/-- Fragments that give no warnings give none together. -/
lemma warningsFrom_quiet (script : Script) {fragments : List Fragment}
    (quiet : ∀ fragment ∈ fragments, fragment.role.warns = false) (start : Nat) :
    script.warningsFrom start fragments = [] := by
  induction fragments generalizing start with
  | nil => rfl
  | cons fragment rest ih =>
    obtain ⟨first, others⟩ := List.forall_mem_cons.1 quiet
    rw [warningsFrom_cons_quiet script first]
    exact ih others _

/-- The warnings of two lists of fragments stand one behind the other. -/
lemma warningsFrom_append (script : Script) (start : Nat) (fragments fragments' : List Fragment) :
    script.warningsFrom start (fragments ++ fragments')
      = script.warningsFrom start fragments
          ++ script.warningsFrom (start + (Fragment.textOf fragments).length) fragments' := by
  rw [Script.warningsFrom, partsFrom_append, List.filter_append, List.map_append]
  rfl

/-- The warning about a fragment in its place. -/
lemma warningsFrom_single {middle : List Char} (parts : text = front ++ (middle ++ back))
    {role : FragmentRole} (warns : role.warns = true) (tokenClass : TokenClass) :
    (Script.ofText text).warningsFrom front.length [⟨middle, tokenClass, role⟩]
      = [(Script.ofText text).remarkAt front.length middle.length (malformedMacro role middle)] := by
  have length : ((front.length + middle.length : Nat) : Int) - front.length = middle.length := by
    omega
  have flagged : Part.warning ⟨front.length, front.length + middle.length, tokenClass, role⟩ = true :=
    warns
  rw [Script.warningsFrom, partsFrom, partsFrom, List.filter_cons_of_pos flagged, List.filter_nil,
    List.map_cons, List.map_nil, Script.warningFor, Script.remarkAt]
  dsimp only
  rw [slice_between parts, length]

/-- A macro has the remark that its run deserves. -/
lemma macroRemark_of_macroHead {run : List Char} {fragments : List Fragment}
    (parts : text = front ++ ('@' :: (run ++ back))) (shape : Fragment.MacroHead run fragments) :
    MacroRemark (Script.ofText text) front.length run
      ((Script.ofText text).warningsFrom front.length fragments) := by
  cases shape with
  | unknown no_lead =>
    have about : (Script.ofText text).warningsFrom front.length
        [⟨'@' :: run, .unclassified, .unknown⟩] = _ := warningsFrom_single parts rfl _
    have length : ((('@' :: run).length : Nat) : Int) = 1 + (run.length : Int) := by
      rw [List.length_cons]
      omega
    rw [about, length]
    exact .unknown no_lead
  | known longest length =>
    rw [warningsFrom_cons_quiet _ rfl]
    exact .known (longest.whole_iff.2 (List.drop_eq_nil_of_le (Nat.le_of_eq length)))
  | @trailing spelled dropped name longest length some_dropped =>
    have left : (spelled ++ dropped).drop name.length = dropped := by
      rw [← length, List.drop_left]
    have remark : MacroRemark (Script.ofText text) front.length (spelled ++ dropped) _ :=
      .trailing (fun whole => some_dropped (left ▸ longest.whole_iff.1 whole)) longest
    have parts' : text = (front ++ '@' :: spelled) ++ (dropped ++ back) := by
      rw [parts, List.append_assoc, List.append_assoc, List.cons_append]
    have about : (Script.ofText text).warningsFrom (front ++ '@' :: spelled).length
        [⟨dropped, .macroTrailing, .trailing⟩] = _ := warningsFrom_single parts' rfl _
    have start : (front ++ '@' :: spelled).length = front.length + 1 + name.length := by
      rw [List.length_append, List.length_cons, length]
      omega
    have count : (dropped.length : Int) = ((spelled ++ dropped).length : Int) - name.length := by
      rw [List.length_append, length]
      omega
    rw [left, ← count, ← start] at remark
    rw [warningsFrom_cons_quiet _ rfl, ← List.length_append, about]
    exact remark

/-! ## Sigils head by head and piece by piece -/

/-- A head that is no macro holds no `@` and no warning. -/
lemma Fragment.SimpleHead.no_remark {place : Surroundings} {fragment : Fragment} {behind : List Char}
    (is_simple : SimpleHead place fragment behind) :
    fragment.role.warns = false ∧ '@' ∉ fragment.text := by
  have behind_first : '@' ∉ fragment.text.tail :=
    fun mem => absurd (is_simple.wellFormed.quiet '@' mem) (by decide)
  cases is_simple with
  | name is_run => exact ⟨rfl, fun mem => Bool.false_ne_true (is_run.user '@' mem)⟩
  | marks other => exact ⟨rfl, fun mem => Bool.false_ne_true (other '@' mem).symm⟩
  | _ => exact ⟨rfl, fun mem => behind_first ((List.mem_cons.1 mem).resolve_left (by decide))⟩

/-- The offsets of the `@` in a stretch of a text. -/
def sigilsIn (text : List Char) (start length : Nat) : List Nat :=
  (List.range' start length).filter fun offset => text[offset]? == some '@'

/-- The sigils of two stretches stand one behind the other. -/
lemma sigilsIn_add (text : List Char) (start length length' : Nat) :
    sigilsIn text start (length + length')
      = sigilsIn text start length ++ sigilsIn text (start + length) length' := by
  rw [sigilsIn, ← List.range'_append_1, List.filter_append]
  rfl

/-- A stretch without an at sign has no sigils. -/
lemma sigilsIn_eq_nil {middle : List Char} (parts : text = front ++ (middle ++ back))
    (absent : '@' ∉ middle) : sigilsIn text front.length middle.length = [] := by
  rw [sigilsIn, List.filter_eq_nil_iff]
  intro offset mem at_offset
  obtain ⟨lower, upper⟩ := List.mem_range'_1.1 mem
  obtain ⟨inside, rfl⟩ := Nat.exists_eq_add_of_le lower
  have bound : inside < middle.length := by omega
  rw [beq_iff_eq, parts, List.getElem?_append_right lower, Nat.add_sub_cancel_left,
    List.getElem?_append_left bound] at at_offset
  exact absent (List.mem_of_getElem? at_offset)

/-- What holds no `@` and no warning has no remarks. -/
lemma remarks_of_quiet {middle : List Char} (parts : text = front ++ (middle ++ back))
    {fragments : List Fragment} (absent : '@' ∉ middle)
    (quiet : ∀ fragment ∈ fragments, fragment.role.warns = false) :
    Remarks (Script.ofText text) (sigilsIn text front.length middle.length)
      ((Script.ofText text).warningsFrom front.length fragments) := by
  rw [sigilsIn_eq_nil parts absent, warningsFrom_quiet _ quiet]
  exact .nil

/-- A macro has the remark about its sigil, the only one in its head. -/
lemma remarks_of_macro {run : List Char} {fragments : List Fragment}
    (parts : text = front ++ ('@' :: (run ++ back))) (is_run : IsRun run back)
    (shape : Fragment.MacroHead run fragments) :
    Remarks (Script.ofText text) (sigilsIn text front.length ('@' :: run).length)
      ((Script.ofText text).warningsFrom front.length fragments) := by
  have only : sigilsIn text front.length ('@' :: run).length = [front.length] := by
    have absent : '@' ∉ run := fun mem => Bool.false_ne_true (is_run.user '@' mem)
    have parts' : text = (front ++ ['@']) ++ (run ++ back) := by
      rw [parts, List.append_assoc, List.singleton_append]
    have behind := sigilsIn_eq_nil parts' absent
    have at_front : (text[front.length]? == some '@') = true := by
      rw [parts, List.getElem?_append_right (Nat.le_refl _), Nat.sub_self]
      rfl
    rw [List.length_append, List.length_singleton] at behind
    rw [List.length_cons, Nat.add_comm, sigilsIn_add, behind, List.append_nil]
    exact List.filter_cons_of_pos at_front
  have remark := macroRemark_of_macroHead parts shape
  rw [← runBehind_eq parts is_run] at remark
  rw [only, ← List.append_nil (Script.warningsFrom _ _ _)]
  exact .cons remark .nil

/-- The warnings of a token are the remarks about its sigils, head by head. -/
lemma remarks_of_token {place : Surroundings} {token : List Char}
    (parts : text = front ++ (token ++ back)) (stop : ∀ c ∈ back.head?, isUserChar c = false) :
    Remarks (Script.ofText text) (sigilsIn text front.length token.length)
      ((Script.ofText text).warningsFrom front.length (fragments place token)) := by
  fun_induction fragments place token generalizing front with
  | case1 => exact .nil
  | case2 place c rest ih =>
    have whole := Fragment.ofHead_append place c rest
    have is_head := Fragment.isHead_ofHead place c rest
    rw [← whole, List.append_assoc] at parts
    have others := @ih (front ++ Fragment.textOf (Fragment.ofHead place c rest).1)
      (by rw [parts, List.append_assoc])
    rw [List.length_append] at others
    rw [← whole, List.length_append, sigilsIn_add, warningsFrom_append]
    refine Remarks.append ?_ others
    -- What stands before the token has grown by its first head; what stands behind it is the same.
    generalize Fragment.ofHead place c rest = head at parts is_head
    obtain ⟨fragments, behind⟩ := head
    cases is_head with
    | ofMacro is_run shape =>
      rw [shape.textOf_eq] at parts ⊢
      refine remarks_of_macro parts ⟨is_run.user, ?_⟩ shape
      cases behind with
      | nil => exact stop
      | cons d more => exact is_run.stop
    | simple is_simple =>
      obtain ⟨quiet, absent⟩ := is_simple.no_remark
      refine remarks_of_quiet parts ?_ (List.forall_mem_singleton.2 quiet)
      rwa [Fragment.textOf_cons, Fragment.textOf, List.flatMap_nil, List.append_nil]

/-- Words can hold an `@`, and so can comments and strings. -/
def Lexeme.holdsSigils : Lexeme → Bool
  | .word _ => true
  | .region _ _ _ => true
  | _ => false

/-- A lexeme that holds no sigils has no at sign. -/
lemma Lexeme.Reads.no_sigil {lexeme : Lexeme} {rest : List Char} (reads : lexeme.Reads rest)
    (none_held : lexeme.holdsSigils = false) : '@' ∉ lexeme.text := by
  intro mem
  cases lexeme with
  | word token => cases none_held
  | region kind body closed => cases none_held
  | opening => cases List.mem_singleton.1 mem
  | closing => cases List.mem_singleton.1 mem
  | space c =>
    rw [← List.mem_singleton.1 mem] at reads
    cases reads
  | punctuation run => cases not_endsPunctuation_of_run reads.2 '@' mem

/-- A piece that holds no sigils gives no warnings. -/
lemma Piece.quiet_of_mem_fragments {piece : Piece} (none_held : piece.lexeme.holdsSigils = false)
    {fragment : Fragment} (mem : fragment ∈ piece.fragments) : fragment.role.warns = false := by
  obtain ⟨lexeme, cursor⟩ := piece
  cases lexeme with
  | word token => cases none_held
  | region kind body closed => cases none_held
  | space c => cases mem
  | punctuation run =>
    rw [List.mem_singleton.1 mem]
    rfl
  | opening =>
    rw [List.mem_singleton.1 mem]
    rfl
  | closing =>
    rw [List.mem_singleton.1 mem]
    rfl

/-- The pieces of a text divide its offsets. -/
lemma range'_placed (cursor : Cursor) (lexemes : List Lexeme) :
    List.range' cursor.offset (written lexemes).length
      = (placed cursor lexemes).flatMap fun piece => List.range' piece.start piece.lexeme.length := by
  induction lexemes generalizing cursor with
  | nil => rfl
  | cons lexeme rest ih =>
    rw [written_cons, List.length_append, ← List.range'_append_1, placed_cons, List.flatMap_cons,
      ← ih]
    rfl

section
variable {piece : Piece} (mem : piece ∈ (Script.ofText text).scan.pieces)
include mem

/-- In code, an at sign is a sigil. -/
lemma isMacroSigil_eq {offset : Nat} (covers : offset ∈ Set.Ico piece.start piece.stop)
    (no_region : ∀ kind body closed, piece.lexeme ≠ .region kind body closed) :
    (Script.ofText text).isMacroSigil offset = (text[offset]? == some '@') := by
  have outside : ((Script.ofText text).scan.regions.all fun region =>
      !(region.start ≤ offset && offset < region.stop)) = true := by
    rw [List.all_eq_true]
    intro region region_mem
    rw [Bool.not_eq_true', ← Bool.not_eq_true, Bool.and_eq_true, decide_eq_true_eq,
      decide_eq_true_eq]
    intro inside
    obtain ⟨kind, body, closed, same⟩ := (exists_region_at_iff mem covers).1 ⟨region, region_mem, inside⟩
    exact no_region kind body closed same
  rw [Script.isMacroSigil, outside, Bool.and_true]
  rfl

/-- In a comment or string there are no sigils. -/
lemma isMacroSigil_region {offset : Nat} (covers : offset ∈ Set.Ico piece.start piece.stop)
    {kind : RegionKind} {body : List Char} {closed : Bool}
    (is_region : piece.lexeme = .region kind body closed) :
    (Script.ofText text).isMacroSigil offset = false := by
  obtain ⟨region, region_mem, inside⟩ :=
    (exists_region_at_iff mem covers).2 ⟨kind, body, closed, is_region⟩
  rw [Script.isMacroSigil, Bool.and_eq_false_iff]
  right
  rw [List.all_eq_false]
  exact ⟨region, region_mem, by simpa using inside⟩

/-- The warnings of a piece are the remarks about the sigils in it. -/
lemma remarks_of_piece :
    Remarks (Script.ofText text)
      ((List.range' piece.start piece.lexeme.length).filter (Script.ofText text).isMacroSigil)
      ((Script.ofText text).warningsFrom piece.start piece.fragments) := by
  have inside : ∀ offset ∈ List.range' piece.start piece.lexeme.length,
      offset ∈ Set.Ico piece.start piece.stop := fun _ => List.mem_range'_1.1
  by_cases is_region : ∃ kind body closed, piece.lexeme = .region kind body closed
  · obtain ⟨kind, body, closed, is_region⟩ := is_region
    have no_sigil : (List.range' piece.start piece.lexeme.length).filter
        (Script.ofText text).isMacroSigil = [] := by
      rw [List.filter_eq_nil_iff]
      intro offset offset_mem
      rw [isMacroSigil_region mem (inside offset offset_mem) is_region]
      exact Bool.false_ne_true
    have nothing : piece.fragments = [] := by
      rw [Piece.fragments, is_region]
    rw [no_sigil, nothing]
    exact .nil
  · -- Outside of comments and strings, every `@` is a sigil.
    have no_region : ∀ kind body closed, piece.lexeme ≠ .region kind body closed :=
      fun kind body closed same => is_region ⟨kind, body, closed, same⟩
    have sigils : (List.range' piece.start piece.lexeme.length).filter
        (Script.ofText text).isMacroSigil = sigilsIn text piece.start piece.lexeme.length :=
      List.filter_congr fun offset offset_mem =>
        isMacroSigil_eq mem (inside offset offset_mem) no_region
    obtain ⟨before, behind, joint, place⟩ := exists_of_mem_placed mem
    have parts := text_of_joint joint
    have reads := (lexemes_eq_iff.1 joint).1.reads
    have start : piece.start = (written before).length := by
      rw [Piece.start, place, Cursor.start_after_offset]
    rw [sigils, start]
    obtain ⟨lexeme, cursor⟩ := piece
    cases lexeme with
    | word token =>
      refine remarks_of_token parts fun c at_end => ?_
      have no_word := reads.2.2 c at_end
      rw [isWordChar, Bool.or_eq_false_iff, Bool.or_eq_false_iff] at no_word
      exact no_word.1.1
    | region kind body closed => exact absurd rfl (no_region kind body closed)
    | _ =>
      exact remarks_of_quiet parts (reads.no_sigil rfl) fun _ => Piece.quiet_of_mem_fragments rfl

end

/-- The warnings are the remarks about the sigils. -/
lemma warnings_remarks (text : List Char) :
    Remarks (Script.ofText text) (Script.ofText text).macroSigils (Script.ofText text).warnings := by
  have sigils : (Script.ofText text).macroSigils = (Script.ofText text).scan.pieces.flatMap fun piece =>
      (List.range' piece.start piece.lexeme.length).filter (Script.ofText text).isMacroSigil := by
    have offsets := range'_placed .start (lexemes text)
    rw [← length_eq_of_lexemes rfl] at offsets
    rw [Script.macroSigils, List.range_eq_range', ← List.filter_flatMap]
    exact congrArg _ offsets
  have warnings : (Script.ofText text).warnings = (Script.ofText text).scan.pieces.flatMap fun piece =>
      (Script.ofText text).warningsFrom piece.start piece.fragments := by
    rw [Script.warnings, Script.highlight, List.filter_flatMap, List.map_flatMap]
    rfl
  rw [sigils, warnings]
  exact Remarks.flatMap fun piece mem => remarks_of_piece mem

end

end KixScript

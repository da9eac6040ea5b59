import KixScript.Outline
import KixScript.Warning
import KixScript.Proofs.Respaced
import KixScript.Proofs.Rows
import KixScript.Proofs.Sight
import Mathlib.Data.List.Basic

/-!
# Views of the tokens

What is found in a script, apart from offsets, is found in its tokens: the atoms and the pairing of
parentheses, the punctuation, the comments and strings, the classified parts, the outline and the
warnings. So scripts with the same tokens look the same (`sameViews_of_tokens_eq`).
-/

namespace KixScript

/-- What an atom is, apart from its offsets. -/
inductive AtomShape where
  | word (text : List Char) (depth : Nat) (member : Bool)
  | opening (partner : Option Nat)
  | closing (partner : Option Nat)
  deriving DecidableEq, Repr

/-- What an atom is, apart from its offsets. -/
def Atom.shape : Atom → AtomShape
  | .word w => .word w.text w.depth w.member
  | .opening _ partner => .opening partner
  | .closing _ partner => .closing partner

namespace Script

/-- The texts of the runs of punctuation. -/
def punctuationTexts (script : Script) : List (List Char) :=
  script.scan.punctuation.map fun span => script.slice span.start span.stop

/-- The comments and strings by kind, whether they are closed, and their text if they are. -/
def regionTexts (script : Script) : List (RegionKind × Bool × List Char) :=
  script.scan.regions.map fun region =>
    (region.kind, region.closed,
      if region.closed then script.slice region.start region.stop else [])

/-- The classified parts by text, class, role and whether they are worth a warning. -/
def partTexts (script : Script) : List (List Char × TokenClass × FragmentRole × Bool) :=
  script.highlight.map fun part =>
    (script.slice part.start part.stop, part.tokenClass, part.role, part.warning)

/-- Two scripts look the same, apart from offsets. -/
structure SameViews (script script' : Script) : Prop where
  atoms : script.scan.atoms.map Atom.shape = script'.scan.atoms.map Atom.shape
  punctuation : script.punctuationTexts = script'.punctuationTexts
  regions : script.regionTexts = script'.regionTexts
  highlight : script.partTexts = script'.partTexts
  functions : script.outline.functions.map OutlineEntry.name
    = script'.outline.functions.map OutlineEntry.name
  labels : script.outline.labels.map OutlineEntry.name
    = script'.outline.labels.map OutlineEntry.name
  warnings : script.warnings.map (fun warning => (warning.message, warning.line))
    = script'.warnings.map (fun warning => (warning.message, warning.line))

end Script

/-- A piece that gives rise to a token. -/
def Token.piece (token : Token) : Piece :=
  ⟨token.lexeme, ⟨0, token.depth, token.afterDot, token.lead⟩⟩

section
variable {α : Type} {text : List Char}

/-- The token that a lexeme is behind others. -/
def tokenBehind (before : List Lexeme) (lexeme : Lexeme) : Token :=
  lexeme.token (Cursor.start.after before) ((written before).count '\n')

/-- What is seen in each piece is seen in its token, and nothing is seen in spaces. -/
def SeenInTokens (text : List Char) (view : Piece → List α) (onToken : Token → List α) : Prop :=
  ∀ before lexeme behind, lexemes text = before ++ lexeme :: behind →
    view ⟨lexeme, Cursor.start.after before⟩
      = if lexeme.isSpace then [] else onToken (tokenBehind before lexeme)

/-- Then the whole text is seen in its tokens. -/
lemma SeenInTokens.flatMap {view : Piece → List α} {onToken : Token → List α}
    (seen : SeenInTokens text view onToken) :
    (Script.ofText text).scan.pieces.flatMap view = (tokens text).flatMap onToken := by
  have behind : ∀ rest before, lexemes text = before ++ rest →
      (placed (Cursor.start.after before) rest).flatMap view
        = (tokensFrom ((written before).count '\n') (Cursor.start.after before) rest).flatMap onToken := by
    intro rest
    induction rest with
    | nil =>
      intro before _
      rfl
    | cons lexeme rest ih =>
      intro before joint
      have ih := ih (before ++ [lexeme]) (by rw [joint, List.append_assoc, List.singleton_append])
      rw [Cursor.after_append, written_append, List.count_append, written_cons, written_nil,
        List.append_nil, Cursor.after_cons, Cursor.after_nil] at ih
      rw [placed_cons, List.flatMap_cons, ih, seen before lexeme rest joint, tokensFrom,
        List.flatMap_append]
      cases lexeme.isSpace with
      | true => rfl
      | false => simp [tokenBehind]
  exact behind (lexemes text) [] rfl

/-- What stands between two offsets is cut out. -/
lemma slice_between {front middle back : List Char} (parts : text = front ++ (middle ++ back)) :
    (Script.ofText text).slice front.length (front.length + middle.length) = middle := by
  rw [Script.slice, Script.ofText, parts, List.drop_left, Nat.add_sub_cancel_left, List.take_left]

/-- The character at an offset is the first one behind it. -/
lemma getElem?_behind {front back : List Char} (parts : text = front ++ back) :
    text[front.length]? = back.head? := by
  rw [parts, List.getElem?_append_right (Nat.le_refl _), Nat.sub_self, List.head?_eq_getElem?]

/-- A text is what is written before a lexeme, the lexeme, and what is written behind. -/
lemma text_of_joint {before behind : List Lexeme} {lexeme : Lexeme}
    (joint : lexemes text = before ++ lexeme :: behind) :
    text = written before ++ (lexeme.text ++ written behind) := by
  rw [← (lexemes_eq_iff.1 joint).2, written_append, written_cons]

/-- The text of a lexeme is cut out where it stands. -/
lemma slice_joint {before behind : List Lexeme} {lexeme : Lexeme}
    (joint : lexemes text = before ++ lexeme :: behind) :
    (Script.ofText text).slice (Cursor.start.after before).offset
      ((Cursor.start.after before).offset + lexeme.text.length) = lexeme.text := by
  rw [Cursor.start_after_offset]
  exact slice_between (text_of_joint joint)

/-- What is seen of pieces one at a time is seen of the tokens. -/
lemma SeenInTokens.filterMap {view : Piece → Option α} {onToken : Token → List α}
    (seen : SeenInTokens text (fun piece => (view piece).toList) onToken) :
    (Script.ofText text).scan.pieces.filterMap view = (tokens text).flatMap onToken := by
  rw [List.filterMap_eq_flatMap_toList, seen.flatMap]

/-- The shapes of the atoms are seen in the tokens. -/
lemma atomShapes_eq (text : List Char) :
    (looseAtoms .start (lexemes text)).map Atom.shape
      = (tokens text).flatMap fun token => (token.piece.atom?.map Atom.shape).toList := by
  have seen : SeenInTokens text (fun piece => (piece.atom?.map Atom.shape).toList)
      fun token => (token.piece.atom?.map Atom.shape).toList := by
    intro before lexeme behind _
    cases lexeme with
    | region kind body closed => cases closed <;> rfl
    | _ => rfl
  rw [← seen.filterMap, looseAtoms, List.map_filterMap]
  rfl

/-- Pieces with the same fragments declare the same name. -/
lemma Piece.text_declaredName? {piece piece' : Piece}
    (words : piece.word?.isSome = piece'.word?.isSome) (same : piece.fragments = piece'.fragments) :
    piece.declaredName?.map Word.text = piece'.declaredName?.map Word.text := by
  unfold declaredName?
  rw [same]
  cases word : piece.word? with
  | none =>
    cases word' : piece'.word? with
    | none => rfl
    | some w' => simp [word, word'] at words
  | some w =>
    cases word' : piece'.word? with
    | none => simp [word, word'] at words
    | some w' =>
      cases piece'.fragments with
      | nil => rfl
      | cons fragment _ =>
        dsimp only
        split <;> rfl

/-- The names of functions are seen in the tokens. -/
lemma functionNames_eq (text : List Char) :
    (Script.ofText text).outline.functions.map OutlineEntry.name
      = (tokens text).flatMap fun token => (token.piece.declaredName?.map Word.text).toList := by
  have seen : SeenInTokens text (fun piece => (piece.declaredName?.map Word.text).toList)
      fun token => (token.piece.declaredName?.map Word.text).toList := by
    intro before lexeme behind _
    cases lexeme with
    | word word => exact congrArg Option.toList (Piece.text_declaredName? rfl rfl)
    | region kind body closed => cases closed <;> rfl
    | _ => rfl
  rw [← seen.filterMap, Script.outline, Script.declaredFunctions, List.map_map, List.map_filterMap]
  rfl

/-- Words with the same text are labels of the same name. -/
lemma Word.name_label? {word word' : Word} (same : word.text = word'.text) :
    word.label?.map OutlineEntry.name = word'.label?.map OutlineEntry.name := by
  unfold label?
  rw [same]
  cases KixScript.fragments .plain word'.text with
  | nil => rfl
  | cons fragment _ =>
    dsimp only
    split <;> rfl

/-- The names of labels are seen in the tokens. -/
lemma labelNames_eq (text : List Char) :
    (Script.ofText text).outline.labels.map OutlineEntry.name
      = (tokens text).flatMap fun token =>
          ((token.piece.word?.bind Word.label?).map OutlineEntry.name).toList := by
  have seen : SeenInTokens text
      (fun piece => ((piece.word?.bind Word.label?).map OutlineEntry.name).toList)
      fun token => ((token.piece.word?.bind Word.label?).map OutlineEntry.name).toList := by
    intro before lexeme behind _
    cases lexeme with
    | word word => exact congrArg Option.toList (Word.name_label? rfl)
    | region kind body closed => cases closed <;> rfl
    | _ => rfl
  rw [← seen.filterMap, ← List.map_filterMap, ← List.filterMap_filterMap]
  rfl

/-- The runs of punctuation are seen in the tokens. -/
lemma punctuationTexts_eq (text : List Char) :
    (Script.ofText text).punctuationTexts
      = (tokens text).flatMap fun token =>
          match token.lexeme with
          | .punctuation run => [run]
          | _ => [] := by
  have seen : SeenInTokens text
      (fun piece => (piece.punctuation?.map fun span =>
        (Script.ofText text).slice span.start span.stop).toList)
      fun token =>
        match token.lexeme with
        | .punctuation run => [run]
        | _ => [] := by
    intro before lexeme behind joint
    cases lexeme with
    | punctuation run => exact congrArg (fun run => [run]) (slice_joint joint)
    | region kind body closed => cases closed <;> rfl
    | _ => rfl
  rw [← seen.filterMap, ← List.map_filterMap]
  rfl

/-- The comments and strings are seen in the tokens. -/
lemma regionTexts_eq (text : List Char) :
    (Script.ofText text).regionTexts
      = (tokens text).flatMap fun token =>
          match token.lexeme with
          | .region kind body closed => [(kind, closed, body)]
          | _ => [] := by
  have seen : SeenInTokens text
      (fun piece => (piece.region?.map fun region => (region.kind, region.closed,
        if region.closed then (Script.ofText text).slice region.start region.stop else [])).toList)
      fun token =>
        match token.lexeme with
        | .region kind body closed => [(kind, closed, body)]
        | _ => [] := by
    intro before lexeme behind joint
    cases lexeme with
    | region kind body closed =>
      cases closed with
      | false => rfl
      | true => exact congrArg (fun body => [(kind, true, body)]) (slice_joint joint)
    | _ => rfl
  rw [← seen.filterMap, ← List.map_filterMap]
  rfl

/-- Fragments that move as a whole are the same parts in their new places. -/
lemma partsFrom_map (move : Nat → Nat) {fragments : List Fragment} {start : Nat}
    (steady : ∀ count ≤ (Fragment.textOf fragments).length, move (start + count) = move start + count) :
    partsFrom (move start) fragments = (partsFrom start fragments).map fun part =>
      { part with start := move part.start, stop := move part.stop } := by
  induction fragments generalizing start with
  | nil => rfl
  | cons fragment rest ih =>
    rw [Fragment.textOf_cons, List.length_append] at steady
    have stop := steady fragment.text.length (Nat.le_add_right _ _)
    have ih := @ih (start + fragment.text.length) (by
      intro count bound
      rw [Nat.add_assoc, steady _ (by omega), stop, Nat.add_assoc])
    rw [stop] at ih
    rw [partsFrom, partsFrom, List.map_cons, stop, ih]

/-- The fragments of a token with the lines that they begin on, the first one on `line`. -/
def markedFrom (line : Nat) : List Fragment → List (Fragment × Nat)
  | [] => []
  | fragment :: rest => (fragment, line) :: markedFrom (line + fragment.text.count '\n') rest

/-- A part by the fragment that it is and the line that it begins on. -/
def Script.mark (script : Script) (part : Part) : Fragment × Nat :=
  (⟨script.slice part.start part.stop, part.tokenClass, part.role⟩, script.lineOf part.start)

/-- Fragments that stand in a text are found where they stand. -/
lemma mark_partsFrom {front back : List Char} {fragments : List Fragment}
    (parts : text = front ++ (Fragment.textOf fragments ++ back)) :
    (partsFrom front.length fragments).map (Script.ofText text).mark
      = markedFrom (front.count '\n') fragments := by
  induction fragments generalizing front with
  | nil => rfl
  | cons fragment rest ih =>
    have split : text = front ++ (fragment.text ++ (Fragment.textOf rest ++ back)) := by
      rw [parts, Fragment.textOf_cons, List.append_assoc]
    have ih := @ih (front ++ fragment.text) (by rw [split, List.append_assoc])
    rw [List.length_append, List.count_append] at ih
    have here : (Script.ofText text).mark
        ⟨front.length, front.length + fragment.text.length, fragment.tokenClass, fragment.role⟩
        = (fragment, front.count '\n') := by
      have bound : front.length ≤ text.length := by
        rw [split, List.length_append]
        omega
      rw [Script.mark, lineOf_eq_count text bound, slice_between split, split, List.take_left]
    rw [partsFrom, List.map_cons, ih, here, markedFrom]

/-- The fragments of a piece, written one after another, are its text, unless it has none. -/
lemma Piece.textOf_fragments (piece : Piece) :
    piece.fragments = [] ∨ Fragment.textOf piece.fragments = piece.lexeme.text := by
  obtain ⟨lexeme, cursor⟩ := piece
  cases lexeme with
  | word word => exact .inr (fragments_text _ word)
  | punctuation run => exact .inr (List.append_nil run)
  | opening => exact .inr rfl
  | closing => exact .inr rfl
  | space c => exact .inl rfl
  | region kind body closed => exact .inl rfl

/-- The classified parts by fragment and line are seen in the tokens. -/
lemma marks_eq (text : List Char) :
    (Script.ofText text).highlight.map (Script.ofText text).mark
      = (tokens text).flatMap fun token => markedFrom token.line token.piece.fragments := by
  have seen : SeenInTokens text (fun piece => piece.parts.map (Script.ofText text).mark)
      fun token => markedFrom token.line token.piece.fragments := by
    intro before lexeme behind joint
    have here : (Piece.parts ⟨lexeme, Cursor.start.after before⟩).map (Script.ofText text).mark
        = markedFrom ((written before).count '\n')
            (Piece.fragments ⟨lexeme, Cursor.start.after before⟩) := by
      rw [Piece.parts, Piece.start, Cursor.start_after_offset]
      rcases Piece.textOf_fragments ⟨lexeme, Cursor.start.after before⟩ with nothing | same
      · rw [nothing]
        rfl
      · apply mark_partsFrom
        rw [same]
        exact text_of_joint joint
    refine here.trans ?_
    cases lexeme with
    | region kind body closed => cases closed <;> rfl
    | _ => rfl
  rw [← seen.flatMap, Script.highlight, List.map_flatMap]

/-- The texts of parts are those that they are marked with. -/
lemma partTexts_eq (script : Script) :
    script.partTexts = (script.highlight.map script.mark).map fun marked =>
      (marked.1.text, marked.1.tokenClass, marked.1.role, marked.1.role.warns) := by
  rw [List.map_map]
  rfl

/-- There is a warning for each part that is marked as malformed. -/
lemma warnings_eq (script : Script) :
    script.warnings.map (fun warning => (warning.message, warning.line))
      = ((script.highlight.map script.mark).filter fun marked => marked.1.role.warns).map
          fun marked => (malformedMacro marked.1.role marked.1.text, (marked.2 : Int) + 1) := by
  rw [List.filter_map, List.map_map, Script.warnings, List.map_map]
  rfl

end

/-- An atom with the partner that `pairs` gives to its index, apart from its offsets. -/
def AtomShape.pairedBy (pairs : List (Nat × Nat)) (index : Nat) : AtomShape → AtomShape
  | .word text depth member => .word text depth member
  | .opening _ => .opening ((pairs.find? (·.1 = index)).map (·.2))
  | .closing _ => .closing ((pairs.find? (·.2 = index)).map (·.1))

/-- The shape of an atom gets the partner of the atom. -/
lemma Atom.shape_pairedBy (pairs : List (Nat × Nat)) (index : Nat) (atom : Atom) :
    (atom.pairedBy pairs index).shape = atom.shape.pairedBy pairs index := by
  cases atom <;> rfl

/-- Atoms of the same shapes have the same pairs. -/
lemma parenPairs_congr {atoms atoms' : List Atom}
    (same : atoms.map Atom.shape = atoms'.map Atom.shape) (index : Nat) (waiting : List Nat) :
    parenPairs index waiting atoms = parenPairs index waiting atoms' := by
  induction atoms generalizing atoms' index waiting with
  | nil =>
    obtain rfl := List.map_eq_nil_iff.1 same.symm
    rfl
  | cons atom rest ih =>
    obtain ⟨atom', rest', rfl, shape, same⟩ := List.map_eq_cons_iff.1 same.symm
    have ih := fun index waiting => ih same.symm index waiting
    cases atom with
    | word w =>
      cases atom' with
      | word w' => exact ih _ _
      | _ => cases shape
    | opening start partner =>
      cases atom' with
      | opening start' partner' => exact ih _ _
      | _ => cases shape
    | closing start partner =>
      cases atom' with
      | closing start' partner' =>
        cases waiting with
        | nil => exact ih _ _
        | cons nearest outer => exact congrArg (List.cons _) (ih _ _)
      | _ => cases shape

/-- Atoms of the same shapes have the same shapes with their partners. -/
lemma shape_pairAtoms {atoms atoms' : List Atom}
    (same : atoms.map Atom.shape = atoms'.map Atom.shape) :
    (pairAtoms atoms).map Atom.shape = (pairAtoms atoms').map Atom.shape := by
  have shape : ∀ atoms : List Atom, (pairAtoms atoms).map Atom.shape
      = (atoms.map Atom.shape).mapIdx (AtomShape.pairedBy (parenPairs 0 [] atoms)) := by
    intro atoms
    apply List.ext_getElem
    · simp [pairAtoms]
    · intro index bound bound'
      simp only [pairAtoms, List.getElem_map, List.getElem_mapIdx]
      exact Atom.shape_pairedBy _ _ _
  rw [shape, shape, same, parenPairs_congr same]

/-- Texts with the same tokens have the same views. -/
theorem sameViews_of_tokens_eq {text text' : List Char} (same : tokens text = tokens text') :
    (Script.ofText text).SameViews (Script.ofText text') where
  atoms := by
    rw [atoms_ofText, atoms_ofText]
    exact shape_pairAtoms (by rw [atomShapes_eq, atomShapes_eq, same])
  punctuation := by rw [punctuationTexts_eq, punctuationTexts_eq, same]
  regions := by rw [regionTexts_eq, regionTexts_eq, same]
  highlight := by rw [partTexts_eq, partTexts_eq, marks_eq, marks_eq, same]
  functions := by rw [functionNames_eq, functionNames_eq, same]
  labels := by rw [labelNames_eq, labelNames_eq, same]
  warnings := by rw [warnings_eq, warnings_eq, marks_eq, marks_eq, same]

end KixScript

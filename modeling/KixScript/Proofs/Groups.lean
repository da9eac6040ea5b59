import KixScript.Proofs.Resumption
import KixScript.Proofs.Shift

/-!
# Groups from outside

Behind a group in parentheses, all is in sight that was in sight where it opens, and nothing of what it
holds (`sightBehind_of_pairs`). With another content in the group, the text around it is read as before
(`exists_readsGroup`, `ReadsGroup.before_eq`). So the walk back from behind the group meets the same
keywords, in the places where they stand now (`foldl_look_around`). `groups_are_opaque` says this of the
queries about blocks.
-/

namespace KixScript

/-- A text with a group in parentheses. -/
def grouped (front content back : List Char) : List Char :=
  front ++ '(' :: (content ++ ')' :: back)

/-- The parentheses at two offsets are partners. -/
def Scan.Pairs (scan : Scan) (start stop : Nat) : Prop :=
  ∃ index partner : Nat, scan.atoms[index]? = some (.opening start (some partner)) ∧
    scan.atoms[partner]? = some (.closing stop (some index))

/-- A block keyword with another content in a group from `start` on. The group ends at `old`, and with
the other content at `new`. What stands before it stays where it is, and what stands behind it keeps
its distance. -/
inductive Occurrence.Around (start old new : Nat) : Occurrence → Occurrence → Prop where
  | before {found} :
    found.stop ≤ start →
    Around start old new found found
  | behind {keyword first last} :
    Around start old new ⟨keyword, old + first, old + last⟩ ⟨keyword, new + first, new + last⟩

/-! ## Behind a closing parenthesis -/

/-- Behind a closing parenthesis, all is in sight that is in sight before its partner. -/
lemma sightBehind_of_pairs {atoms : List Atom} {index partner start : Nat}
    (closes : (pairAtoms atoms)[partner]? = some (.closing start (some index))) :
    sightBehind (atoms.take (partner + 1)) = sightBehind (atoms.take index) := by
  obtain ⟨⟨other, here⟩, nearest⟩ := closing_pairAtoms_iff.1 closes
  obtain ⟨front, back, rfl, rfl⟩ := exists_of_getElem? here
  -- The nearest parenthesis that waits before it is its partner.
  rw [partner_of_closing] at nearest
  obtain ⟨rest, waiting⟩ := List.head?_eq_some_iff.1 nearest
  obtain ⟨earlier, _, inner⟩ := (nested front).outer waiting
  rw [List.take_append_of_le_length (Nat.le_of_lt earlier), ← inner,
    ← (nested front).look_closing waiting start other, ← sightBehind_concat, List.take_add_one, here,
    List.take_left, Option.toList_some]

/-- An atom stands behind the lexemes that the atoms before it come from. -/
lemma exists_joint_of_atom {text : List Char} {index : Nat} {atom : Atom}
    (found : (Script.ofText text).scan.atoms[index]? = some atom) :
    ∃ before lexeme behind, lexemes text = before ++ lexeme :: behind ∧
      Piece.atom? ⟨lexeme, Cursor.start.after before⟩ = some atom.alone ∧
      looseAtoms .start before = (looseAtoms .start (lexemes text)).take index ∧
      looseAtoms .start (before ++ [lexeme])
        = (looseAtoms .start (lexemes text)).take (index + 1) := by
  have loose : (looseAtoms .start (lexemes text))[index]? = some atom.alone := by
    show ((Script.ofText text).scan.pieces.filterMap Piece.atom?)[index]? = _
    rw [← map_alone_atoms, List.getElem?_map, found]
    rfl
  obtain ⟨bound, here⟩ := List.getElem?_eq_some_iff.1 loose
  have parts : (placed .start (lexemes text)).filterMap Piece.atom?
      = (looseAtoms .start (lexemes text)).take index
        ++ atom.alone :: (looseAtoms .start (lexemes text)).drop (index + 1) := by
    rw [← here, List.getElem_cons_drop, List.take_append_drop]
    rfl
  obtain ⟨earlier, later, same, seen, parts⟩ := List.filterMap_eq_append_iff.1 parts
  obtain ⟨between, piece, rest, rfl, nothing, is_atom, _⟩ := List.filterMap_eq_cons_iff.1 parts
  rw [← List.append_assoc] at same
  obtain ⟨before, behind, joint, place, run⟩ := exists_of_placed_eq same
  have atoms : looseAtoms .start before = (looseAtoms .start (lexemes text)).take index := by
    rw [looseAtoms, run, List.filterMap_append, seen, List.filterMap_eq_nil_iff.2 nothing,
      List.append_nil]
  obtain ⟨lexeme, cursor⟩ := piece
  obtain rfl : cursor = Cursor.start.after before := place
  have itself : looseAtoms (Cursor.start.after before) [lexeme] = [atom.alone] :=
    List.filterMap_cons_some is_atom
  refine ⟨before, lexeme, behind, joint, is_atom, atoms, ?_⟩
  rw [looseAtoms_append, atoms, itself, List.take_add_one, loose, Option.toList_some]

/-- What stands before a group is `before`, and `group` reaches from there to its closing parenthesis.
Behind it, all is in sight that is in sight before it. -/
structure ReadsGroup (front content back : List Char) (before group : List Lexeme) : Prop where
  opens : ∃ inside, lexemes (grouped front content back) = before ++ .opening :: inside
  written_before : written before = front
  joint : lexemes (grouped front content back) = group ++ .closing :: lexemes back
  length_group : (written group).length = front.length + content.length + 1
  sight : sightBehind (looseAtoms .start (group ++ [.closing])) = sightBehind (looseAtoms .start before)

/-- A pair of parentheses is read as a group. -/
lemma exists_readsGroup {front content back : List Char}
    (paired : (Scan.ofText (grouped front content back)).Pairs front.length
      (front.length + content.length + 1)) :
    ∃ before group, ReadsGroup front content back before group := by
  obtain ⟨index, partner, opens, closes⟩ := paired
  obtain ⟨before, lexeme, inside, joint, is_opening, seen, _⟩ := exists_joint_of_atom opens
  obtain ⟨group, lexeme', behind, joint', is_closing, _, seen'⟩ := exists_joint_of_atom closes
  obtain ⟨rfl, start⟩ := Piece.atom?_eq_opening.1 is_opening
  obtain ⟨rfl, stop⟩ := Piece.atom?_eq_closing.1 is_closing
  rw [Piece.start, Cursor.start_after_offset] at start stop
  have parts := text_of_joint joint
  have parts' := text_of_joint joint'
  rw [grouped] at parts parts'
  rw [← List.cons_append, ← List.append_assoc] at parts'
  obtain ⟨same, _⟩ := List.append_inj parts start.symm
  obtain ⟨_, same'⟩ := List.append_inj parts' (by simp [stop, Nat.add_assoc])
  have is_back : lexemes back = behind := by
    refine lexemes_eq_iff.2 ⟨?_, ?_⟩
    · cases (lexemes_eq_iff.1 joint').1.of_append_right with
      | cons _ stream => exact stream
    · exact (List.cons.inj same').2.symm
  rw [← is_back] at joint'
  refine ⟨before, group, ⟨inside, joint⟩, same.symm, joint', stop, ?_⟩
  rw [seen, seen']
  exact sightBehind_of_pairs closes

namespace ReadsGroup
variable {front content content' back : List Char} {before before' group group' : List Lexeme}

/-- From before the group, nothing is seen behind its opening parenthesis. -/
lemma before_eq (reads : ReadsGroup front content back before group)
    (reads' : ReadsGroup front content' back before' group') : before = before' := by
  obtain ⟨inside, opens⟩ := reads.opens
  obtain ⟨inside', opens'⟩ := reads'.opens
  obtain ⟨stream', whole'⟩ := lexemes_eq_iff.1 opens'
  have alike : SameFront (written (.opening :: inside)) (written (.opening :: inside')) :=
    ⟨rfl, fun slash => absurd (Option.some.inj slash) (by decide)⟩
  have stream : Stream (before ++ .opening :: inside') :=
    (lexemes_eq_iff.1 opens).1.replace stream'.of_append_right alike
  have whole : written (before ++ .opening :: inside') = grouped front content' back := by
    rw [written_append, reads.written_before, ← whole', written_append, reads'.written_before]
  exact List.append_cancel_right ((lexemes_eq_iff.2 ⟨stream, whole⟩).symm.trans opens')

/-- A group is closed. -/
lemma allClosed (reads : ReadsGroup front content back before group) :
    AllClosed (group ++ [.closing]) := by
  have closed := (lexemes_eq_iff.1 reads.joint).1.allClosed (List.cons_ne_nil _ _)
  refine allClosed_append.2 ⟨closed, ?_⟩
  intro lexeme mem
  rw [List.mem_singleton.1 mem]
  rfl

/-- Nothing is known behind a group but its place and the depth around it. -/
lemma cursor_eq (reads : ReadsGroup front content back before group) :
    Cursor.start.after (group ++ [.closing])
      = ⟨front.length + content.length + 2, (Cursor.start.after before).depth, false, .absent⟩ := by
  have depth := length_sight (group ++ [.closing])
  rw [reads.sight, length_sight] at depth
  have offset := Cursor.start_after_offset (group ++ [.closing])
  rw [written_append, List.length_append, reads.length_group] at offset
  rw [Nat.succ.inj depth]
  rw [Cursor.after_append, Cursor.after_cons, Cursor.after_nil] at offset ⊢
  exact congrArg (fun offset => Cursor.mk offset _ false .absent) offset

end ReadsGroup

/-- What is in sight at a joint ends there. -/
lemma stop_le_of_mem_sight {text : List Char} {before behind : List Lexeme}
    (joint : lexemes text = before ++ behind) {found : Occurrence}
    (mem : found ∈ (sightBehind (looseAtoms .start before)).flatten) :
    found.stop ≤ (written before).length := by
  rw [← keywordsBack_joint joint] at mem
  obtain ⟨later, earlier, met⟩ := List.append_of_mem mem
  obtain ⟨_, atom, _, split, is_keyword, _⟩ := keywordsBack_resume met
  have here : atom ∈ (Script.ofText text).atomsBefore (written before).length := by
    rw [split]
    exact List.mem_append_right _ List.mem_cons_self
  obtain ⟨atom_mem, starts⟩ := List.mem_filter.1 here
  obtain ⟨piece, piece_mem, start, stop⟩ := exists_piece_of_atom atom_mem
  rw [decide_eq_true_eq, start] at starts
  rw [(Atom.span_of_occurrence? is_keyword).2, stop]
  rw [pieces_ofText, joint, placed_append] at piece_mem
  rcases List.mem_append.1 piece_mem with mem | mem
  · have bound := stop_le_of_mem_placed mem
    rwa [Cursor.start_after_offset] at bound
  · exact absurd starts (Int.not_lt.2 (starts_behind_joint piece mem))

/-! ## Sight with another content -/

/-- The same keywords are in sight in the same groups, apart from a shift. -/
abbrev Shift.SameSight (shift : Shift) (groups groups' : List (List Occurrence)) : Prop :=
  List.Forall₂ (List.Forall₂ (Occurrence.Around shift.start shift.old shift.new)) groups groups'

section
variable {shift : Shift} {found : Occurrence}

/-- A keyword behind the group lies around it as before. -/
lemma around_of_behind (behind : shift.old ≤ found.start) (ordered : found.start ≤ found.stop) :
    found.Around shift.start shift.old shift.new (shift.occurrence found) := by
  obtain ⟨keyword, start, stop⟩ := found
  obtain ⟨first, rfl⟩ := Nat.exists_eq_add_of_le behind
  obtain ⟨last, rfl⟩ := Nat.exists_eq_add_of_le (Nat.le_trans behind ordered)
  have moved : shift.occurrence ⟨keyword, shift.old + first, shift.old + last⟩
      = ⟨keyword, shift.new + first, shift.new + last⟩ := by
    rw [Shift.occurrence, Shift.moveNat_add (Nat.le_refl _), Shift.moveNat_add (Nat.le_refl _),
      Shift.moveNat_old]
  rw [moved]
  exact .behind

/-- A step of the walk, seen from behind the group. -/
lemma look_around {groups groups' : List (List Occurrence)} {atom : Atom}
    (behind : shift.old ≤ atom.start) (ordered : atom.start ≤ atom.stop)
    (seen : shift.SameSight groups groups') :
    shift.SameSight (look groups atom) (look groups' (shift.atom atom)) := by
  cases atom with
  | word w =>
    cases seen with
    | nil => exact .nil
    | cons here outer =>
      refine .cons (List.rel_append ?_ here) outer
      have moved := @Shift.occurrence?_atom shift (.word w)
      rw [Shift.atom] at moved
      rw [moved]
      cases is_keyword : (Atom.word w).occurrence? with
      | none => exact .nil
      | some found =>
        obtain ⟨start, stop⟩ := Atom.span_of_occurrence? is_keyword
        rw [← start] at behind ordered
        rw [← stop] at ordered
        exact .cons (around_of_behind behind ordered) .nil
  | opening start partner =>
    cases seen with
    | nil => exact .cons .nil .nil
    | cons here outer => exact .cons .nil (.cons here outer)
  | closing start partner =>
    cases seen with
    | nil => exact .nil
    | cons here outer =>
      cases outer with
      | nil => exact .cons here .nil
      | cons next more => exact .cons next more

/-- Atoms behind the group leave the sights alike. -/
lemma foldl_look_around {groups groups' : List (List Occurrence)} {atoms : List Atom}
    (behind : ∀ atom ∈ atoms, shift.old ≤ atom.start ∧ atom.start ≤ atom.stop)
    (seen : shift.SameSight groups groups') :
    shift.SameSight (atoms.foldl look groups) ((atoms.map shift.atom).foldl look groups') := by
  induction atoms generalizing groups groups' with
  | nil => exact seen
  | cons atom rest ih =>
    obtain ⟨start, ordered⟩ := behind atom List.mem_cons_self
    apply ih
    · intro other mem
      exact behind other (List.mem_cons_of_mem _ mem)
    · exact look_around start ordered seen

end

/-- Around the group, a keyword stays what it is. -/
lemma Occurrence.Around.keyword_eq {start old new : Nat} {found found' : Occurrence}
    (around : found.Around start old new found') : found'.keyword = found.keyword := by
  cases around <;> rfl

/-- The search for an opener decides by keywords only. -/
lemma findOpener_around_group {start old new : Nat} {seen seen' : List Occurrence}
    (around : List.Forall₂ (Occurrence.Around start old new) seen seen') (seeded : Bool)
    (waiting : List Keyword) :
    Option.Rel (Occurrence.Around start old new) (findOpener seeded waiting seen)
      (findOpener seeded waiting seen') := by
  induction around generalizing waiting with
  | nil => exact .none
  | @cons found found' _ _ here _ ih =>
    rw [findOpener, findOpener, here.keyword_eq]
    split
    · exact ih _
    · split
      · exact .some here
      · exact ih _
    · split
      · exact .some here
      · split
        · exact .some here
        · exact ih _

/-! ## Queries from behind -/

/-- What stands behind two beginnings of a text sees the same of both, apart from a shift. -/
structure SameBehind (shift : Shift) (group group' : List Lexeme) : Prop where
  closed : AllClosed group
  closed' : AllClosed group'
  length : (written group).length = shift.old
  length' : (written group').length = shift.new
  cursor : Cursor.start.after group' = shift.cursor (Cursor.start.after group)
  sight : shift.SameSight (sightBehind (looseAtoms .start group))
    (sightBehind (looseAtoms .start group'))

/-- Another content takes the place of the one in a group. -/
def groupShift (front content content' : List Char) : Shift where
  start := front.length
  old := front.length + content.length + 2
  new := front.length + content'.length + 2
  start_lt_old := by omega
  start_lt_new := by omega

/-- Behind the two groups all is the same. -/
lemma ReadsGroup.sameBehind {front content content' back : List Char}
    {before before' group group' : List Lexeme} (reads : ReadsGroup front content back before group)
    (reads' : ReadsGroup front content' back before' group') :
    SameBehind (groupShift front content content') (group ++ [.closing]) (group' ++ [.closing]) := by
  obtain rfl := reads.before_eq reads'
  have place := Cursor.start_after_offset (group ++ [.closing])
  have place' := Cursor.start_after_offset (group' ++ [.closing])
  rw [reads.cursor_eq] at place
  rw [reads'.cursor_eq] at place'
  refine ⟨reads.allClosed, reads'.allClosed, place.symm, place'.symm, ?_, ?_⟩
  · rw [reads.cursor_eq, reads'.cursor_eq]
    exact congrArg (fun offset => Cursor.mk offset _ false .absent)
      (groupShift front content content').moveNat_old.symm
  · rw [reads.sight, reads'.sight]
    refine List.forall₂_same.2 fun seen seen_mem => List.forall₂_same.2 fun found mem => ?_
    obtain ⟨inside, opens⟩ := reads.opens
    have stop := stop_le_of_mem_sight opens (List.mem_flatten_of_mem seen_mem mem)
    rw [reads.written_before] at stop
    exact .before stop

/-- Behind a group, the same lexemes come into view whatever is in it. -/
lemma exists_view_behind (back : List Char) (offset : Nat) :
    ∃ front rest, ∀ text group, lexemes text = group ++ lexemes back → AllClosed group →
      View text ((written group).length + offset : Nat) (group ++ front) rest := by
  rcases Nat.lt_or_ge back.length offset with beyond | within
  · refine ⟨lexemes back, [], fun text group joint closed => ?_⟩
    have length := length_eq_of_lexemes joint
    rw [written_append, List.length_append, ← length_eq_of_lexemes rfl] at length
    rw [← joint]
    exact .of_length_lt (Int.ofNat_lt.2 (by omega))
  · cases place_of_le within with
    | @joint front rest joint closed =>
      refine ⟨front, rest, fun text group joint' closed' => ?_⟩
      have view := View.of_joint (joint'.trans (by rw [joint, List.append_assoc]))
        (allClosed_append.2 ⟨closed', closed⟩)
      rwa [written_append, List.length_append] at view
    | @between front lexeme rest inside joint no_region some_inside bound =>
      refine ⟨front ++ [lexeme], rest, fun text group joint' closed' => ?_⟩
      have view := View.of_between (joint'.trans (by rw [joint, List.append_assoc])) no_region
        some_inside bound
      rwa [written_append, List.length_append, Nat.add_assoc, List.append_assoc] at view
    | @inside front kind body closed rest inside joint some_inside bound =>
      refine ⟨front, .region kind body closed :: rest, fun text group joint' closed' => ?_⟩
      have view := View.of_inside (joint'.trans (by rw [joint, List.append_assoc])) some_inside bound
      rwa [written_append, List.length_append, Nat.add_assoc] at view

/-- An offset is inside of a word or on no keyword. -/
lemma exists_word_or_no_keyword (back : List Char) (offset : Nat) :
    (∃ front word rest inside, lexemes back = front ++ .word word :: rest ∧ inside < word.length ∧
      offset = (written front).length + inside) ∨
    ∀ text group, lexemes text = group ++ lexemes back →
      (Script.ofText text).keywordAt ((written group).length + offset : Nat) = none := by
  refine or_iff_not_imp_left.2 fun no_word text group joint => ?_
  cases here : (Script.ofText text).keywordAt ((written group).length + offset : Nat) with
  | none => rfl
  | some found =>
    obtain ⟨atom, mem, is_keyword, start, stop⟩ := exists_atom_of_keywordAt here
    cases atom with
    | word word =>
      obtain ⟨piece, piece_mem, is_word⟩ := List.mem_filterMap.1 (word_mem_atoms.1 mem)
      obtain ⟨is_lexeme, start', stop', _⟩ := Piece.word?_eq_some is_word
      rw [Atom.start, start'] at start
      rw [Atom.stop, stop'] at stop
      rw [joint, placed_append] at piece_mem
      rcases List.mem_append.1 piece_mem with mem | mem
      · have bound := stop_le_of_mem_placed mem
        rw [Cursor.start_after_offset] at bound
        omega
      · obtain ⟨front, rest, split, place⟩ := exists_of_mem_placed mem
        rw [Piece.start, place, Cursor.offset_after, Cursor.start_after_offset] at start
        rw [Piece.stop, place, Cursor.offset_after, Cursor.start_after_offset, is_lexeme,
          Lexeme.length, Lexeme.text] at stop
        rw [is_lexeme] at split
        exact absurd ⟨front, word.text, rest, offset - (written front).length, split, by omega,
          by omega⟩ no_word
    | opening start partner => cases is_keyword
    | closing start partner => cases is_keyword

/-- From a word, the search for the opener that belongs to it walks over what is in sight before it. -/
lemma matchingOpener_word {text word : List Char} {before behind : List Lexeme} {inside : Nat}
    (joint : lexemes text = before ++ .word word :: behind) (bound : inside < word.length) :
    (Script.ofText text).matchingOpener ((written before).length + inside : Nat)
      = ((Cursor.start.after before).keyword? word).bind fun keyword =>
          if keyword.closes then
            findOpener true [keyword] (sightBehind (looseAtoms .start before)).flatten
          else none := by
  rw [Script.matchingOpener, keywordAt_word joint (by omega) (by omega)]
  cases (Cursor.start.after before).keyword? word with
  | none => rfl
  | some keyword =>
    dsimp only [Option.map_some, Option.bind_some]
    rw [keywordsBack_joint joint]

namespace SameBehind
variable {shift : Shift} {group group' : List Lexeme} (same : SameBehind shift group group')
include same

/-- The group stops no later than the cursor behind it. -/
lemma old_le : shift.old ≤ (Cursor.start.after group).offset := by
  rw [Cursor.start_after_offset, same.length]

/-- Whatever follows, the same is in sight behind it. -/
lemma sight_append (front : List Lexeme) :
    List.Forall₂ (Occurrence.Around shift.start shift.old shift.new)
      (sightBehind (looseAtoms .start (group ++ front))).flatten
      (sightBehind (looseAtoms .start (group' ++ front))).flatten := by
  have moved : looseAtoms (Cursor.start.after group') front
      = (looseAtoms (Cursor.start.after group) front).map shift.atom := by
    rw [same.cursor]
    exact Piece.Moved.filterMap Piece.Moved.atom? (Piece.Moved.placed same.old_le front)
  have behind : ∀ atom ∈ looseAtoms (Cursor.start.after group) front,
      shift.old ≤ atom.start ∧ atom.start ≤ atom.stop := by
    intro atom mem
    obtain ⟨piece, mem, found⟩ := List.mem_filterMap.1 mem
    obtain ⟨start, stop⟩ := Piece.span_of_atom? found
    rw [start, stop]
    exact ⟨Nat.le_trans same.old_le (le_start_of_mem_placed mem), Nat.le_add_right _ _⟩
  rw [looseAtoms_append, looseAtoms_append, moved, sightBehind, sightBehind, List.foldl_append,
    List.foldl_append]
  exact List.rel_flatten (foldl_look_around behind same.sight)

variable {text text' back : List Char} (joint : lexemes text = group ++ lexemes back)
  (joint' : lexemes text' = group' ++ lexemes back)
include joint joint'

/-- Behind the groups, the same opener encloses an offset. -/
lemma enclosingOpener (offset : Nat) :
    Option.Rel (Occurrence.Around shift.start shift.old shift.new)
      ((Script.ofText text).enclosingOpener (shift.old + offset : Nat))
      ((Script.ofText text').enclosingOpener (shift.new + offset : Nat)) := by
  obtain ⟨front, rest, view⟩ := exists_view_behind back offset
  have back := (view text group joint same.closed).back
  have back' := (view text' group' joint' same.closed').back
  rw [same.length] at back
  rw [same.length'] at back'
  have found := findOpener_around_group (same.sight_append front) false []
  rwa [← back, ← back'] at found

/-- Behind the groups, an offset is matched with the same opener. -/
lemma matchingOpener (offset : Nat) :
    Option.Rel (Occurrence.Around shift.start shift.old shift.new)
      ((Script.ofText text).matchingOpener (shift.old + offset : Nat))
      ((Script.ofText text').matchingOpener (shift.new + offset : Nat)) := by
  rw [← same.length, ← same.length']
  rcases exists_word_or_no_keyword back offset with
    ⟨front, word, rest, inside, split, bound, rfl⟩ | no_keyword
  · have keyword : (Cursor.start.after (group' ++ front)).keyword? word
        = (Cursor.start.after (group ++ front)).keyword? word := by
      rw [Cursor.after_append, same.cursor, Shift.cursor_after same.old_le, Cursor.after_append]
      rfl
    rw [split, ← List.append_assoc] at joint joint'
    rw [← Nat.add_assoc, ← Nat.add_assoc, ← List.length_append, ← List.length_append,
      ← written_append, ← written_append, matchingOpener_word joint bound,
      matchingOpener_word joint' bound, keyword]
    cases (Cursor.start.after (group ++ front)).keyword? word with
    | none => exact .none
    | some keyword =>
      rw [Option.bind_some, Option.bind_some]
      rw [same.length, same.length']
      split
      · exact findOpener_around_group (same.sight_append front) true [keyword]
      · exact .none
  · rw [Script.matchingOpener, Script.matchingOpener, no_keyword text group joint,
      no_keyword text' group' joint']
    exact .none

end SameBehind

/-- What a group in parentheses holds cannot be seen from behind it. With another content in the group,
the queries about blocks give the answers that they gave, in the places where these stand now. None of
them is in the group. -/
theorem groups_are_opaque (front content content' back : List Char)
    (paired : (Scan.ofText (grouped front content back)).Pairs front.length
      (front.length + content.length + 1))
    (paired' : (Scan.ofText (grouped front content' back)).Pairs front.length
      (front.length + content'.length + 1)) (offset : Nat) :
    Option.Rel (Occurrence.Around front.length (front.length + content.length + 2)
        (front.length + content'.length + 2))
      ((Script.ofText (grouped front content back)).enclosingOpener
        (front.length + content.length + 2 + offset : Nat))
      ((Script.ofText (grouped front content' back)).enclosingOpener
        (front.length + content'.length + 2 + offset : Nat)) ∧
    Option.Rel (Occurrence.Around front.length (front.length + content.length + 2)
        (front.length + content'.length + 2))
      ((Script.ofText (grouped front content back)).matchingOpener
        (front.length + content.length + 2 + offset : Nat))
      ((Script.ofText (grouped front content' back)).matchingOpener
        (front.length + content'.length + 2 + offset : Nat)) := by
  obtain ⟨before, group, reads⟩ := exists_readsGroup paired
  obtain ⟨before', group', reads'⟩ := exists_readsGroup paired'
  have joint : lexemes (grouped front content back) = (group ++ [.closing]) ++ lexemes back := by
    rw [reads.joint, List.append_assoc, List.singleton_append]
  have joint' : lexemes (grouped front content' back) = (group' ++ [.closing]) ++ lexemes back := by
    rw [reads'.joint, List.append_assoc, List.singleton_append]
  have same := reads.sameBehind reads'
  exact ⟨same.enclosingOpener joint joint' offset, same.matchingOpener joint joint' offset⟩

/-- A loop that a group stands in, up to the group. -/
def loopFront : List Char :=
  "If $a Do ".toList

/-- The rest of the loop. -/
def loopBack : List Char :=
  " $c Until EndIf".toList

/-- The parentheses hide a closer here and a branch there. -/
theorem groups_of_loopFront :
    (Scan.ofText (grouped loopFront "Loop (If)".toList loopBack)).Pairs 9 19 ∧
    (Scan.ofText (grouped loopFront "')' Else".toList loopBack)).Pairs 9 18 ∧
    Option.Rel (Occurrence.Around 9 20 19)
      ((Script.ofText (grouped loopFront "Loop (If)".toList loopBack)).enclosingOpener 30)
      ((Script.ofText (grouped loopFront "')' Else".toList loopBack)).enclosingOpener 29) ∧
    Option.Rel (Occurrence.Around 9 20 19)
      ((Script.ofText (grouped loopFront "Loop (If)".toList loopBack)).matchingOpener 30)
      ((Script.ofText (grouped loopFront "')' Else".toList loopBack)).matchingOpener 29) := by
  have paired : (Scan.ofText (grouped loopFront "Loop (If)".toList loopBack)).Pairs 9 19 :=
    ⟨3, 8, by decide +kernel, by decide +kernel⟩
  have paired' : (Scan.ofText (grouped loopFront "')' Else".toList loopBack)).Pairs 9 18 :=
    ⟨3, 5, by decide +kernel, by decide +kernel⟩
  exact ⟨paired, paired', groups_are_opaque loopFront "Loop (If)".toList "')' Else".toList loopBack
    paired paired' 10⟩

end KixScript

import KixScript.Proofs.Resumption
import KixScript.Proofs.Shift

/-!
# What comments and strings hold

A closed comment or string is a content between two delimiters, and any other content without the
closing one may take its place (`Delimits`). What stands before it sees the opening delimiter only,
and what stands behind it the closing one. So the text is read alike around it
(`Delimits.lexemes_refill`), and nothing but offsets changes in what is found there
(`contents_invisible`).
-/

namespace KixScript

namespace RegionKind

/-- The number of characters of the opening delimiter, and of the closing one. -/
def width : RegionKind → Nat
  | lineComment => 1
  | blockComment => 2
  | string => 1

/-- The closing delimiter of a comment or string at the head of a text. A string is closed by the
quote that opens it. -/
def mark (text : List Char) : RegionKind → List Char
  | lineComment => ['\n']
  | blockComment => ['*', '/']
  | string => text.take 1

end RegionKind

namespace Region

/-- The closing delimiter of a comment or string in a text. -/
def mark (region : Region) (text : List Char) : List Char :=
  region.kind.mark (text.drop region.start)

/-- The text with another content between the delimiters of a comment or string. -/
def refill (region : Region) (text content : List Char) : List Char :=
  text.take (region.start + region.kind.width) ++
    (content ++ text.drop (region.stop - region.kind.width))

end Region

/-- The delimiters of a closed comment or string. -/
structure Delimits (kind : RegionKind) (opening mark : List Char) : Prop where
  length_opening : opening.length = kind.width
  length_mark : mark.length = kind.width
  closes : ∀ rest, kind.mark (opening ++ rest) = mark
  /-- From before, nothing is seen behind the opening delimiter. -/
  front : ∀ first second, SameFront (opening ++ first) (opening ++ second)
  reads : ∀ content, ¬ mark <:+: content → ∀ rest,
    (Lexeme.region kind (opening ++ (content ++ mark)) true).Reads rest

/-- A closed comment or string is a content between two delimiters. -/
lemma Lexeme.Reads.exists_delimits {kind : RegionKind} {body rest : List Char}
    (reads : (Lexeme.region kind body true).Reads rest) :
    ∃ opening content mark, Delimits kind opening mark ∧ body = opening ++ (content ++ mark) := by
  cases kind with
  | string =>
    obtain ⟨quote, inner, is_quote, rfl, closed⟩ := reads
    obtain ⟨content, rfl⟩ := ClosedBy.exists_append closed
    refine ⟨[quote], content, [quote], ⟨rfl, rfl, fun _ => rfl, ?_, ?_⟩, rfl⟩
    · intro first second
      refine ⟨rfl, fun slash => ?_⟩
      rw [Option.some.inj slash] at is_quote
      cases is_quote
    · intro content' nowhere rest'
      exact ⟨quote, _, is_quote, rfl, closedBy_append List.not_mem_nil nowhere⟩
  | lineComment =>
    obtain ⟨inner, rfl, closed⟩ := reads
    obtain ⟨content, rfl⟩ := ClosedBy.exists_append closed
    refine ⟨[';'], content, ['\n'], ⟨rfl, rfl, fun _ => rfl, ?_, ?_⟩, rfl⟩
    · intro first second
      exact ⟨rfl, fun slash => absurd (Option.some.inj slash) (by decide)⟩
    · intro content' nowhere rest'
      exact ⟨_, rfl, closedBy_append List.not_mem_nil nowhere⟩
  | blockComment =>
    obtain ⟨inner, rfl, closed⟩ := reads
    obtain ⟨content, rfl⟩ := ClosedBy.exists_append closed
    refine ⟨['/', '*'], content, ['*', '/'], ⟨rfl, rfl, fun _ => rfl, ?_, ?_⟩, rfl⟩
    · intro first second
      exact ⟨rfl, fun _ => rfl⟩
    · intro content' nowhere rest'
      exact ⟨_, rfl, closedBy_append (by decide) nowhere⟩

namespace Delimits
variable {kind : RegionKind} {opening mark content content' : List Char}
  (delimits : Delimits kind opening mark)
include delimits

/-- Some mark ends the comment or string. -/
lemma mark_ne_nil : mark ≠ [] := by
  rintro rfl
  have width := delimits.length_mark
  cases kind <;> cases width

/-- Contents stand between two marks of the same width. -/
lemma length_body (content : List Char) :
    (opening ++ (content ++ mark)).length = content.length + 2 * kind.width := by
  rw [List.length_append, List.length_append, delimits.length_opening, delimits.length_mark]
  omega

/-- The last character is that of the mark. -/
lemma getLast?_body (content : List Char) :
    (opening ++ (content ++ mark)).getLast? = mark.getLast? := by
  rw [← List.append_assoc, List.getLast?_append_of_ne_nil _ delimits.mark_ne_nil]

/-- Around another content, the text is read as before. -/
lemma lexemes_refill {text : List Char} {before behind : List Lexeme}
    (joint : lexemes text = before ++ .region kind (opening ++ (content ++ mark)) true :: behind)
    (nowhere : ¬ mark <:+: content') :
    lexemes (written before ++ (opening ++ (content' ++ mark) ++ written behind))
      = before ++ .region kind (opening ++ (content' ++ mark)) true :: behind := by
  obtain ⟨stream, _⟩ := lexemes_eq_iff.1 joint
  rw [lexemes_eq_iff]
  refine ⟨?_, by rw [written_append, written_cons, Lexeme.text]⟩
  apply stream.replace
  · refine .cons (delimits.reads content' nowhere _) ?_
    cases stream.of_append_right with
    | cons _ stream => exact stream
  · rw [written_cons, written_cons, Lexeme.text, Lexeme.text, List.append_assoc opening,
      List.append_assoc opening]
    exact delimits.front _ _

/-- The other content stands where the first one did. -/
lemma refill_eq {region : Region} {front back : List Char} (is_kind : region.kind = kind)
    (start : region.start = front.length)
    (stop : region.stop = front.length + (opening ++ (content ++ mark)).length) :
    region.refill (front ++ (opening ++ (content ++ mark) ++ back)) content'
      = front ++ (opening ++ (content' ++ mark) ++ back) := by
  have head : front ++ (opening ++ (content ++ mark) ++ back)
      = (front ++ opening) ++ (content ++ mark ++ back) := by simp
  have tail : front ++ (opening ++ (content ++ mark) ++ back)
      = (front ++ opening ++ content) ++ (mark ++ back) := by simp
  have length_head : (front ++ opening).length = region.start + region.kind.width := by
    rw [List.length_append, start, is_kind, delimits.length_opening]
  have length_tail : (front ++ opening ++ content).length = region.stop - region.kind.width := by
    have length_mark := delimits.length_mark
    simp only [List.length_append, is_kind] at stop ⊢
    omega
  rw [Region.refill, head, List.take_left' length_head, ← head, tail, List.drop_left' length_tail]
  simp

end Delimits

/-- A closed comment or string of a text, with its delimiters. -/
lemma exists_delimits_of_mem {text : List Char} {region : Region}
    (mem : region ∈ (Script.ofText text).scan.regions) (closed : region.closed = true) :
    ∃ before opening content mark behind, Delimits region.kind opening mark ∧
      lexemes text = before ++ .region region.kind (opening ++ (content ++ mark)) true :: behind ∧
      region.start = (written before).length ∧
      region.stop = (written before).length + (opening ++ (content ++ mark)).length := by
  obtain ⟨piece, piece_mem, found⟩ := List.mem_filterMap.1 mem
  obtain ⟨body, same, start, stop⟩ := Piece.region?_eq_some found
  obtain ⟨before, behind, joint, place⟩ := exists_of_mem_placed piece_mem
  rw [same, closed] at joint
  rw [Piece.start, place, Cursor.start_after_offset] at start
  rw [Piece.stop, same, place, Cursor.start_after_offset] at stop
  obtain ⟨opening, content, mark, delimits, rfl⟩ :=
    (lexemes_eq_iff.1 joint).1.reads.exists_delimits
  exact ⟨before, opening, content, mark, behind, delimits, joint, start, stop⟩

/-- What a closed comment or string holds cannot be seen. If another content without its closing
delimiter takes the place of its own, the script looks the same as before, with all that stands
behind it moved. -/
theorem contents_invisible (text content : List Char) {region : Region}
    (mem : region ∈ (Script.ofText text).scan.regions) (closed : region.closed = true)
    (nowhere : ¬ region.mark text <:+: content) :
    ∃ shift : Shift, shift.start = region.start ∧ shift.old = region.stop ∧
      shift.new = region.start + (content.length + 2 * region.kind.width) ∧
      (Script.ofText text).SameUpTo (Script.ofText (region.refill text content)) shift := by
  obtain ⟨before, opening, inner, mark, behind, delimits, joint, start, stop⟩ :=
    exists_delimits_of_mem mem closed
  have whole := text_of_joint joint
  rw [Lexeme.text] at whole
  have is_mark : region.mark text = mark := by
    rw [Region.mark, whole, start, List.drop_left, List.append_assoc, delimits.closes]
  have refilled : region.refill text content
      = written before ++ (opening ++ (content ++ mark) ++ written behind) := by
    rw [whole, delimits.refill_eq rfl start stop]
  have some_width : 0 < region.kind.width := by
    rw [← delimits.length_mark]
    exact List.length_pos_iff.2 delimits.mark_ne_nil
  have length := delimits.length_body inner
  rw [is_mark] at nowhere
  refine ⟨⟨region.start, region.stop, region.start + (content.length + 2 * region.kind.width),
    by omega, by omega⟩, rfl, rfl, rfl, ?_⟩
  rw [refilled]
  apply Shift.Carries.sameUpTo
  apply Shift.carries_of_joint joint (delimits.lexemes_refill joint nowhere) start stop
  · rw [delimits.length_body, ← start]
  · rw [delimits.getLast?_body, delimits.getLast?_body]

/-- A comment between parentheses, in a line that a comment ends. -/
def commentedText : List Char :=
  "If ($a /* b */ = 'c').Do ; d\nElse EndIf".toList

/-- The comment is filled with marks of other comments, strings and groups. -/
theorem contents_of_commentedText :
    ⟨.blockComment, 7, 14, true⟩ ∈ (Script.ofText commentedText).scan.regions ∧
    ¬ Region.mark ⟨.blockComment, 7, 14, true⟩ commentedText <:+: "/ ') Loop ; (\n*".toList ∧
    ∃ shift : Shift, shift.start = 7 ∧ shift.old = 14 ∧ shift.new = 26 ∧
      (Script.ofText commentedText).SameUpTo
        (Script.ofText "If ($a /*/ ') Loop ; (\n**/ = 'c').Do ; d\nElse EndIf".toList) shift := by
  have mem : ⟨.blockComment, 7, 14, true⟩ ∈ (Script.ofText commentedText).scan.regions := by
    decide +kernel
  have nowhere : ¬ Region.mark ⟨.blockComment, 7, 14, true⟩ commentedText
      <:+: "/ ') Loop ; (\n*".toList := by
    decide +kernel
  have refilled : Region.refill ⟨.blockComment, 7, 14, true⟩ commentedText "/ ') Loop ; (\n*".toList
      = "If ($a /*/ ') Loop ; (\n**/ = 'c').Do ; d\nElse EndIf".toList := by
    decide +kernel
  obtain ⟨shift, start, old, new, same⟩ := contents_invisible commentedText _ mem rfl nowhere
  rw [refilled] at same
  exact ⟨mem, nowhere, shift, start, old, new.trans (by decide +kernel), same⟩

end KixScript

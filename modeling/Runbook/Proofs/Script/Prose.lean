import Runbook.Proofs.Script.Blocks

/-!
Prose fences. A fence that is no request block says nothing: without its lines the document has the same blocks, and the
lines behind it have lower numbers. However many backticks open a fence, it is a line of exactly three that closes it;
where none follows, the rest of the document is prose.
-/

namespace Runbook

/-- An error whose line has another number. -/
def ScenarioError.renumber (f : Nat → Nat) (error : ScenarioError) : ScenarioError :=
  { error with line := error.line.map f }

namespace Script

open Text

variable {f : Nat → Nat} {scan : Scan} {line opening closing : Line} {lines before inner after : List Line}

/-! Other numbers for the lines -/

/-- A line with another number. -/
def Line.renumber (f : Nat → Nat) (line : Line) : Line := { line with number := f line.number }

/-- A block whose lines have other numbers. -/
def Block.renumber (f : Nat → Nat) (block : Block) : Block :=
  { block with line := f block.line, lines := block.lines.map (Line.renumber f) }

/-- A place in a document whose lines have other numbers. -/
def Place.renumber (f : Nat → Nat) : Place → Place
  | .outside => .outside
  | .prose => .prose
  | .inside block => .inside (block.renumber f)

/-- A scan of lines that have other numbers. -/
def Scan.renumber (f : Nat → Nat) (scan : Scan) : Scan :=
  { scan with place := scan.place.renumber f, blocks := scan.blocks.map (Block.renumber f) }

/-- The blocks, or the error, of lines that have other numbers. -/
def renumberBlocks (f : Nat → Nat) (result : Except ScenarioError (List Block)) : Except ScenarioError (List Block) :=
  (result.map (List.map (Block.renumber f))).mapError (ScenarioError.renumber f)

/-- What a scan says at the end of a document. -/
def Scan.conclude (scan : Scan) : Except ScenarioError (List Block) :=
  match scan.place with
  | .inside block => .error (.atLine block.label block.line .unterminatedBlock)
  | _ => .ok scan.blocks

theorem blocks_eq (document : String) : blocks document = ((linesOf document).foldl Scan.next {}).conclude := rfl

/-- No decision of a scan depends on the number of a line. -/
theorem Scan.next_renumber (f : Nat → Nat) (scan : Scan) (line : Line) :
    (scan.renumber f).next (line.renumber f) = (scan.next line).renumber f := by
  obtain ⟨place, heading, highest, blocks⟩ := scan
  cases place with
  | inside block =>
    by_cases closes : trim line.text.toList = fence <;>
      simp [next, renumber, Place.renumber, Block.renumber, Line.renumber, closes]
  | prose =>
    by_cases closes : trim line.text.toList = fence <;>
      simp [next, renumber, Place.renumber, Line.renumber, closes]
  | outside =>
    cases found : heading? (trim line.text.toList) with
    | some title => simp [next, renumber, Place.renumber, Line.renumber, found]
    | none =>
      cases opened : afterFront? fence (trim line.text.toList) with
      | none => simp [next, renumber, Place.renumber, Line.renumber, found, opened]
      | some info =>
        by_cases requests : String.ofList ((trim info).map lowerChar) ∈ requestTags
        · simp [next, openBlock, renumber, Place.renumber, Block.renumber, Line.renumber, found, opened, requests]
        · simp [next, renumber, Place.renumber, Line.renumber, found, opened, requests]

theorem foldl_next_renumber (f : Nat → Nat) (scan : Scan) (lines : List Line) :
    (lines.map (Line.renumber f)).foldl Scan.next (scan.renumber f) = (lines.foldl Scan.next scan).renumber f := by
  induction lines generalizing scan with
  | nil => rfl
  | cons line rest ih => rw [List.map_cons, List.foldl_cons, Scan.next_renumber, ih, List.foldl_cons]

theorem Scan.conclude_renumber (f : Nat → Nat) (scan : Scan) :
    (scan.renumber f).conclude = renumberBlocks f scan.conclude := by
  obtain ⟨place, heading, highest, blocks⟩ := scan
  cases place <;> rfl

/-! Lines taken out of a document -/

/-- The number that a line has with more lines in front of it, if it stands behind the place where they are put. -/
def shift (place more number : Nat) : Nat := if number ≤ place then number else number + more

theorem map_number_linesOf (document : String) :
    (linesOf document).map Line.number = List.range' 1 (linesOf document).length := by
  refine List.ext_getElem? fun index => ?_
  by_cases inside : index < (linesOf document).length
  · have here := List.getElem?_eq_getElem inside
    rw [List.getElem?_map, here, List.getElem?_range' inside]
    rw [getElem?_linesOf] at here
    obtain ⟨text, -, same⟩ := Option.map_eq_some_iff.mp here
    rw [← same]
    simp [Nat.add_comm]
  · rw [List.getElem?_eq_none (by simpa using inside), List.getElem?_eq_none (by simpa using inside)]

/-- Lines are the same if their numbers and their texts are. -/
theorem eq_of_map_eq {others : List Line} (numbers : lines.map Line.number = others.map Line.number)
    (texts : lines.map Line.text = others.map Line.text) : lines = others := by
  induction lines generalizing others with
  | nil => exact (List.map_eq_nil_iff.mp texts.symm).symm
  | cons line rest ih =>
    obtain ⟨other, more, rfl, text, later⟩ := List.map_eq_cons_iff.mp texts.symm
    obtain ⟨number, behind⟩ := List.cons.inj numbers
    have same : line = other := by
      cases line
      cases other
      cases number
      cases text
      rfl
    rw [same, ih behind later.symm]

theorem map_shift_range' (place more count : Nat) : (List.range' 1 (place + count)).map (shift place more) =
    List.range' 1 place ++ List.range' (1 + (place + more)) count := by
  have early : (List.range' 1 place).map (shift place more) = (List.range' 1 place).map id := by
    refine List.map_congr_left fun number member => if_pos ?_
    have bounds := List.mem_range'_1.mp member
    omega
  have late : (List.range' (1 + place) count).map (shift place more) =
      (List.range' (1 + place) count).map (more + ·) := by
    refine List.map_congr_left fun number member => ?_
    have bounds := List.mem_range'_1.mp member
    rw [shift, if_neg (by omega), Nat.add_comm]
  rw [← List.range'_append_1, List.map_append, early, late, List.map_id, List.map_add_range',
    show more + (1 + place) = 1 + (place + more) by omega]

/-- The lines of a document around others that are taken out, numbered as if these were still there. -/
theorem map_renumber_linesOf {document shorter : String} {gap : List Line}
    (split : linesOf document = before ++ (gap ++ after))
    (cut : (linesOf shorter).map Line.text = (before ++ after).map Line.text) :
    (linesOf shorter).map (Line.renumber (shift before.length gap.length)) = before ++ after := by
  have count : (linesOf shorter).length = before.length + after.length := by simpa using congrArg List.length cut
  have all := map_number_linesOf document
  rw [split, ← List.append_assoc] at all
  simp only [List.map_append, List.length_append, ← List.range'_append_1] at all
  obtain ⟨around, back⟩ := List.append_inj all (by simp)
  obtain ⟨front, -⟩ := List.append_inj around (by simp)
  refine eq_of_map_eq ?_ ?_
  · calc ((linesOf shorter).map (Line.renumber (shift before.length gap.length))).map Line.number
        = ((linesOf shorter).map Line.number).map (shift before.length gap.length) := by
          rw [List.map_map, List.map_map]
          rfl
      _ = List.range' 1 before.length ++ List.range' (1 + (before.length + gap.length)) after.length := by
          rw [map_number_linesOf, count, map_shift_range']
      _ = (before ++ after).map Line.number := by rw [List.map_append, front, back]
  · rw [List.map_map]
    exact cut

/-- The lines at the front of a document are the lines of a document of their own. -/
theorem linesOf_eq_of_front {document shorter : String} {gap : List Line} (split : linesOf document = before ++ gap)
    (cut : (linesOf shorter).map Line.text = before.map Line.text) : linesOf shorter = before := by
  have count : (linesOf shorter).length = before.length := by simpa using congrArg List.length cut
  have all := map_number_linesOf document
  rw [split, List.map_append, List.length_append, ← List.range'_append_1] at all
  refine eq_of_map_eq ?_ cut
  rw [map_number_linesOf, count, (List.append_inj all (by simp)).1]

/-! Prose of any number of backticks -/

/-- A line starts with a number of backticks and an info string without any, and asks for no request block. -/
structure Line.OpensProse (line : Line) (backticks : Nat) : Prop where
  long : 3 ≤ backticks
  marked : ∃ info, trim line.text.toList = List.replicate backticks '\x60' ++ info ∧ '\x60' ∉ info ∧
    String.ofList ((trim info).map lowerChar) ∉ requestTags

theorem Line.OpensProse.opens {backticks : Nat} (prose : line.OpensProse backticks) : line.Opens := by
  obtain ⟨more, rfl⟩ := Nat.exists_eq_add_of_le prose.long
  obtain ⟨info, text, -⟩ := prose.marked
  exact ⟨List.replicate more '\x60' ++ info, by rw [text, List.replicate_add, List.append_assoc]; rfl⟩

/-- What stands behind three of more backticks is no tag, for the next backtick is a part of it. -/
theorem Line.OpensProse.not_requests {backticks : Nat} (prose : line.OpensProse backticks) : ¬line.Requests := by
  rintro ⟨tag, read, isTag⟩
  obtain ⟨more, rfl⟩ := Nat.exists_eq_add_of_le prose.long
  obtain ⟨info, text, -, untagged⟩ := prose.marked
  rw [text, List.replicate_add, List.append_assoc] at read
  obtain rfl : List.replicate more '\x60' ++ info = tag := @List.append_cancel_left _ fence _ _ read
  cases more with
  | zero => exact untagged isTag
  | succ more =>
    have backtickless : ∀ tag ∈ requestTags, '\x60' ∉ tag.toList := by decide
    refine backtickless _ isTag ?_
    rw [String.toList_ofList]
    exact List.mem_map.mpr ⟨'\x60', mem_trim (by simp [List.replicate_succ]) (by decide), by decide⟩

/-- A prose fence says nothing. The line that closes it is the next one of exactly three backticks, however many open
it. Without the lines from the opening to the closing one the document has the same blocks, with the numbers that their
lines then have; and if no line closes the fence, the blocks are those of the lines in front of it. -/
theorem blocks_of_prose {document : String} {parts : List Part} {rest : List Line} {backticks : Nat}
    (split : linesOf document = parts.flatMap Part.lines ++ opening :: rest) (sound : ∀ part ∈ parts, part.Sound)
    (prose : opening.OpensProse backticks) :
    (∀ line : Line, trim line.text.toList = List.replicate backticks '\x60' → (line.Closes ↔ backticks = 3)) ∧
    (∀ inner closing after shorter, rest = inner ++ closing :: after → (∀ line ∈ inner, ¬line.Closes) →
      closing.Closes → (linesOf shorter).map Line.text = (parts.flatMap Part.lines ++ after).map Line.text →
      blocks document =
        renumberBlocks (shift (parts.flatMap Part.lines).length (inner.length + 2)) (blocks shorter)) ∧
    ∀ shorter, (∀ line ∈ rest, ¬line.Closes) →
      (linesOf shorter).map Line.text = (parts.flatMap Part.lines).map Line.text →
        blocks document = blocks shorter := by
  have outside := (Scan.follows_foldl sound).place
  refine ⟨fun line text => ?_, fun inner closing after shorter ends unclosed closes cut => ?_,
    fun shorter unclosed cut => ?_⟩
  · have three : fence = List.replicate 3 '\x60' := rfl
    rw [Line.Closes, text, three, List.replicate_left_inj]
  · have part : (Part.fenced opening inner closing).Sound := ⟨prose.opens, unclosed, closes⟩
    have gap : linesOf document =
        parts.flatMap Part.lines ++ ((Part.fenced opening inner closing).lines ++ after) := by
      simp [split, ends, Part.lines]
    have count : (Part.fenced opening inner closing).lines.length = inner.length + 2 := by simp [Part.lines]
    have numbered := map_renumber_linesOf gap cut
    rw [count] at numbered
    rw [blocks_eq, blocks_eq, ← Scan.conclude_renumber, ← foldl_next_renumber, numbered, gap, List.foldl_append,
      List.foldl_append, List.foldl_append, Scan.foldl_fenced outside part prose.not_requests]
    rfl
  · have swallowed := @Scan.foldl_prose ((parts.flatMap Part.lines).foldl Scan.next {}) rest unclosed
    rw [blocks_eq, blocks_eq, linesOf_eq_of_front split cut, split, List.foldl_append, List.foldl_cons,
      Scan.next_opens outside prose.opens, if_neg prose.not_requests, swallowed]
    simp only [Scan.conclude, outside]

/-- A document with a fence of four backticks, closed by four, and a request block behind it. -/
def quoted : String := "````text\nnote\n````\n```kest\nGET /\n```\n"

/-- The fence runs to the end of the request block, which is lost. -/
theorem quoted_swallows : ¬Line.Closes ⟨3, "````"⟩ ∧ blocks quoted = .ok [] := by
  have split : linesOf quoted = [].flatMap Part.lines ++ ⟨1, "````text"⟩ ::
      ([⟨2, "note"⟩, ⟨3, "````"⟩, ⟨4, "```kest"⟩, ⟨5, "GET /"⟩] ++ ⟨6, "```"⟩ :: []) := by rfl
  have prose : Line.OpensProse ⟨1, "````text"⟩ 4 := ⟨by decide, "text".toList, by decide, by decide, by decide⟩
  obtain ⟨closed, cut, -⟩ := blocks_of_prose split (by simp) prose
  have nothing : blocks quoted = renumberBlocks _ (blocks "") :=
    cut _ _ [] "" rfl (by decide) (by decide) rfl
  exact ⟨fun closes => absurd ((closed _ (by decide)).mp closes) (by decide), nothing⟩

end Script
end Runbook

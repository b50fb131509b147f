import Runbook.Proofs.Script.Blocks
import Runbook.Proofs.Script.Written

/-!
The scan of a written script: its title says nothing to it, each step gives one block under the heading of the step, and
the block holds the lines that were written between its fences.
-/

namespace Runbook.Script

open Runbook.Text

/-- A text is one line. -/
structure IsLine (text : String) : Prop where
  plain : '\n' ∉ text.toList
  unreturned : text.toList.getLast? ≠ some '\r'

/-- What a heading has in front of the title of its step. -/
def headingMark (number : Nat) : String := "## Step " ++ toString number ++ ": "

theorem toList_headingMark (number : Nat) :
    (headingMark number).toList = "## Step ".toList ++ ((toString number).toList ++ [':', ' ']) := by
  rw [headingMark, String.toList_append, String.toList_append, List.append_assoc]
  rfl

namespace IsTitle

variable {text mark : String}

/-- Nothing is trimmed from a title with a mark in front of it. -/
theorem trim_append (title : IsTitle text) {c : Char} {rest : List Char} (starts : mark.toList = c :: rest)
    (solid : isBlank c = false) : trim (mark ++ text).toList = mark.toList ++ text.toList := by
  rw [String.toList_append, starts]
  exact isTrimmed_append solid (by simpa using title.filled) title.trimmed

theorem isLine_append (title : IsTitle text) (plain : '\n' ∉ mark.toList) : IsLine (mark ++ text) := by
  refine ⟨by simp [plain, title.plain], ?_⟩
  rw [String.toList_append, List.getLast?_append_of_ne_nil _ (by simpa using title.filled)]
  exact title.trimmed.getLast?_ne (by decide)

end IsTitle

/-- The heading of a step is a title behind the mark of its number. -/
theorem Writable.heading {step : Step} (writable : Writable step) :
    ∃ title, IsTitle title ∧ "## " ++ step.name = headingMark step.sortOrder ++ title ∧
      step.name = "Step " ++ toString step.sortOrder ++ ": " ++ title := by
  obtain ⟨title, name, isTitle⟩ := writable.name
  refine ⟨title, isTitle, ?_, name⟩
  rw [← String.toList_inj, String.toList_append, String.toList_append, toList_headingMark, name]
  simp only [String.toList_append, List.append_assoc]
  rfl

theorem headingNumber_toString {number : Nat} (inRange : number ≤ greatestNumber) :
    headingNumber (toString number).toList = number := by
  have digits : ∀ c ∈ (toString number).toList, isDigit c = true := fun _ => isDigit_of_mem_toString
  unfold headingNumber
  rw [decimalValue_toString, List.all_eq_true.mpr digits, decide_eq_true inRange]
  rfl

/-- The heading of a step tells its number and title. -/
theorem heading?_written {number : Nat} (inRange : number ≤ greatestNumber) {title : String} (isTitle : IsTitle title) :
    heading? ((headingMark number).toList ++ title.toList) = some (number, title) := by
  have digits : ∀ c ∈ (toString number).toList, isDigit c = true := fun _ => isDigit_of_mem_toString
  have titled : IsTitled ([] ++ ':' :: ' ' :: title.toList) (trim (' ' :: title.toList)) :=
    .marked (by simp) (by decide) (by simpa using isTitle.plain)
  rw [trim_cons (by decide), isTitle.trimmed] at titled
  have ends : isAnyDigit ':' = false := by decide
  have blank : ∀ c ∈ [' '], isBlank c = true := List.forall_mem_singleton.mpr (by decide)
  have isHeading : IsHeading ('#' :: '#' :: ([' '] ++ ("Step".toList ++ ([' '] ++ ((toString number).toList ++
      ([] ++ ':' :: ' ' :: title.toList)))))) (toString number).toList title.toList :=
    .written (by simp) blank (by decide) (by simp) blank toList_toString_ne_nil
      (fun c member => isAnyDigit_of_isDigit (digits c member)) (by simpa using ends) titled
  have whole : (headingMark number).toList ++ title.toList = '#' :: '#' :: ([' '] ++ ("Step".toList ++ ([' '] ++
      ((toString number).toList ++ ([] ++ ':' :: ' ' :: title.toList))))) := by
    simp [toList_headingMark]
  rw [whole, isHeading.heading?, headingNumber_toString inRange, String.ofList_toList]

namespace Scan

variable {scan : Scan} {line : Line}

/-- A title says nothing to the scan. -/
theorem next_title (outside : scan.place = .outside) {name : String} (title : IsTitle name)
    (text : line.text = "# " ++ name) : scan.next line = scan := by
  have whole : trim line.text.toList = "# ".toList ++ name.toList := by
    rw [text]
    exact title.trim_append rfl (by decide)
  unfold next
  rw [outside, whole]
  rfl

theorem next_kest (outside : scan.place = .outside) (text : line.text = String.ofList fence ++ "kest") :
    scan.next line = scan.openBlock line.number := by
  have requests : line.Requests := ⟨"kest".toList, by rw [text]; rfl, by decide⟩
  rw [next_opens outside requests.opens, if_pos requests]

end Scan

/-- A block is the written one of a step. -/
structure Block.Holds (block : Block) (step : Step) : Prop where
  number : block.number = step.sortOrder
  label : block.label = step.name
  lines : block.lines.map Line.text = writeRequest step :: writeSections step

/-- The lines of a step give one block. -/
theorem foldl_next_step {step : Step} (writable : Writable step) {lines : List Line}
    (texts : lines.map Line.text = writeStep step) {scan : Scan} (outside : scan.place = .outside) :
    ∃ block last, lines.foldl Scan.next scan = last ∧ last.place = .outside ∧ last.blocks = scan.blocks ++ [block] ∧
      block.Holds step := by
  obtain ⟨title, isTitle, heading_eq, name⟩ := writable.heading
  obtain ⟨front, ending, rfl, frontTexts, endTexts⟩ := List.map_eq_append_iff.mp texts
  obtain ⟨heading, behind, rfl, headingText, behindTexts⟩ := List.map_eq_cons_iff.mp frontTexts
  obtain ⟨opening, inner, rfl, openingText, innerTexts⟩ := List.map_eq_cons_iff.mp behindTexts
  obtain ⟨closing, nothing, rfl, closingText, nothingTexts⟩ := List.map_eq_cons_iff.mp endTexts
  obtain rfl := List.map_eq_nil_iff.mp nothingTexts
  have found : heading? (trim heading.text.toList) = some (step.sortOrder, title) := by
    rw [headingText, heading_eq, isTitle.trim_append (toList_headingMark _) (by decide)]
    exact heading?_written writable.sortOrder isTitle
  have opened : Scan.next { scan with heading := some (step.sortOrder, title) } opening =
      { ({ scan with heading := none, highest := max scan.highest step.sortOrder } : Scan) with
        place := .inside ⟨step.sortOrder, some title, opening.number, []⟩ } := by
    have still : ({ scan with heading := some (step.sortOrder, title) } : Scan).place = .outside := outside
    exact Scan.next_kest still openingText
  have inside : ∀ line ∈ inner, ¬line.Closes := fun line member =>
    (writable.isContent line.text (innerTexts ▸ List.mem_map_of_mem member)).unfenced
  have closes : closing.Closes := by
    rw [Line.Closes, closingText]
    rfl
  refine ⟨⟨step.sortOrder, some title, opening.number, inner⟩, _, rfl, ?_⟩
  rw [List.foldl_append, List.foldl_cons, List.foldl_cons, List.foldl_cons, List.foldl_nil,
    Scan.next_heading outside found, opened, Scan.foldl_inside inside, Scan.next_closes closes]
  refine ⟨rfl, rfl, rfl, ?_, innerTexts⟩
  rw [name, Block.label]
  simp [isTitle.filled]

/-- The lines of several steps give a block for each of them. -/
theorem foldl_next_steps {steps : List Step} (writable : ∀ step ∈ steps, Writable step) {lines : List Line}
    (texts : lines.map Line.text = steps.flatMap writeStep) {scan : Scan} (outside : scan.place = .outside) :
    ∃ found last, lines.foldl Scan.next scan = last ∧ last.place = .outside ∧ last.blocks = scan.blocks ++ found ∧
      List.Forall₂ Block.Holds found steps := by
  induction steps generalizing lines scan with
  | nil =>
    obtain rfl := List.map_eq_nil_iff.mp texts
    exact ⟨[], scan, rfl, outside, (List.append_nil _).symm, .nil⟩
  | cons step rest ih =>
    rw [List.flatMap_cons] at texts
    obtain ⟨own, others, rfl, ownTexts, otherTexts⟩ := List.map_eq_append_iff.mp texts
    obtain ⟨block, between, first, still, kept, holds⟩ :=
      foldl_next_step (writable step List.mem_cons_self) ownTexts outside
    obtain ⟨found, last, later, ends, more, all⟩ :=
      ih (fun other member => writable other (List.mem_cons_of_mem _ member)) otherTexts still
    refine ⟨block :: found, last, ?_, ends, ?_, .cons holds all⟩
    · rw [List.foldl_append, first, later]
    · rw [more, kept, List.append_assoc, List.singleton_append]

theorem isLine_of_mem_writeStep {step : Step} (writable : Writable step) : ∀ text ∈ writeStep step, IsLine text := by
  obtain ⟨title, isTitle, heading_eq, -⟩ := writable.heading
  have heading : IsLine ("## " ++ step.name) := by
    have digits : '\n' ∉ (toString step.sortOrder).toList := (isSolid_toString _).not_mem (by decide)
    rw [heading_eq]
    refine isTitle.isLine_append fun member => ?_
    rw [toList_headingMark, List.mem_append, List.mem_append] at member
    rcases member with inFront | inNumber | inBack
    · exact absurd inFront (by decide)
    · exact digits inNumber
    · exact absurd inBack (by decide)
  have inner : ∀ text ∈ writeRequest step :: writeSections step, IsLine text := fun text member =>
    ⟨(writable.isContent text member).plain, (writable.isContent text member).unreturned⟩
  have opening : IsLine (String.ofList fence ++ "kest") := ⟨by decide, by decide⟩
  have closing : IsLine (String.ofList fence) := ⟨by decide, by decide⟩
  unfold writeStep
  rw [List.forall_mem_append, List.forall_mem_cons, List.forall_mem_cons, List.forall_mem_singleton]
  exact ⟨⟨heading, opening, inner⟩, closing⟩

/-- The lines of a written script are the lines that it was written of. -/
theorem lines_write {name : String} (title : IsTitle name) {steps : List Step}
    (writable : ∀ step ∈ steps, Writable step) :
    lines (write name steps).toList = (("# " ++ name) :: steps.flatMap writeStep).map String.toList := by
  have texts : ∀ text ∈ ("# " ++ name) :: steps.flatMap writeStep, IsLine text := by
    rw [List.forall_mem_cons, List.forall_mem_flatMap]
    exact ⟨title.isLine_append (by decide), fun step member => isLine_of_mem_writeStep (writable step member)⟩
  have whole : (write name steps).toList =
      ((("# " ++ name) :: steps.flatMap writeStep).map String.toList).flatMap (· ++ ['\n']) := by
    rw [write, String.toList_join, List.flatMap_map, List.flatMap_map]
    simp only [String.toList_append]
    rfl
  rw [whole]
  refine lines_flatMap ?_ ?_
  · exact List.forall_mem_map.mpr fun text member => (texts text member).1
  · exact List.forall_mem_map.mpr fun text member => (texts text member).2

/-- A written script has a block for each of its steps. -/
theorem blocks_write {name : String} (title : IsTitle name) {steps : List Step}
    (writable : ∀ step ∈ steps, Writable step) :
    ∃ found, blocks (write name steps) = .ok found ∧ List.Forall₂ Block.Holds found steps := by
  have texts := map_text_linesOf (write name steps)
  rw [lines_write title writable, List.map_map] at texts
  have same : String.ofList ∘ String.toList = id := funext fun _ => String.ofList_toList
  rw [same, List.map_id] at texts
  obtain ⟨first, rest, split, firstText, restTexts⟩ := List.map_eq_cons_iff.mp texts
  have opening : ({} : Scan).place = .outside := rfl
  obtain ⟨found, last, scanned, outside, kept, holds⟩ := foldl_next_steps writable restTexts opening
  refine ⟨found, ?_, holds⟩
  have all : (linesOf (write name steps)).foldl Scan.next {} = last := by
    rw [split, List.foldl_cons, Scan.next_title opening title firstText, scanned]
  unfold blocks
  simp only [all, outside, kept]
  rfl

/-- The title of a written script is its name. -/
theorem title?_write {name : String} (title : IsTitle name) {steps : List Step}
    (writable : ∀ step ∈ steps, Writable step) :
    title? (write name steps) = some name := by
  have whole : trim ("# " ++ name).toList = "# ".toList ++ name.toList := title.trim_append rfl (by decide)
  have own : trim name.toList = name.toList := title.trimmed
  have filled : name.toList.isEmpty = false := by simpa using title.filled
  have unfenced : (afterFront? fence (trim ("# " ++ name).toList)).isSome = false := by
    rw [whole]
    rfl
  have marked : afterFront? ['#', ' '] (trim ("# " ++ name).toList) = some name.toList := by
    rw [whole]
    rfl
  unfold title?
  rw [lines_write title writable, List.map_cons, title?.go]
  simp only [unfenced, marked, own, filled, Bool.false_eq_true, if_false, String.ofList_toList]

end Runbook.Script

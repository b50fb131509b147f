import Mathlib.Logic.Relation
import Runbook.Proofs.Script.Prose
import Runbook.Proofs.Script.Sections

/-!
Edits of a request block that leave its step as it is: comments and blank lines where nothing is read of them, and the
sections for captures, assertions and options in another order. The lines of a block are numbered one after the other,
so the lines of an edited block have other numbers.
-/

namespace Runbook.Script

open Runbook.Text

/-- The first character of a comment that is not blank is a number sign. -/
def IsComment (line : String) : Prop :=
  (trim line.toList).head? = some '#'

instance (line : String) : Decidable (IsComment line) :=
  inferInstanceAs (Decidable (_ = _))

/-- A part of a block that belongs to one section: the marker line that opens it and the lines up to the next one. -/
structure Portion where
  place : Section
  marker : String
  lines : List String
  marked : marker? marker = some place
  unmarked : ∀ line ∈ lines, marker? line = none

/-- All lines of a portion, with its marker. -/
def Portion.texts (portion : Portion) : List String :=
  portion.marker :: portion.lines

/-- One edit of the lines of a block. -/
inductive Edit : List String → List String → Prop where
  /-- A blank line or a comment is put in front of the request line, between lines of this kind. -/
  | ahead {front rest : List String} {line : String} (opening : ∀ other ∈ front, isInert other = true)
      (inert : isInert line = true) : Edit (front ++ rest) (front ++ line :: rest)
  /-- A comment is put behind the request line and some of the headers. -/
  | header {front headers rest : List String} {request line : String}
      (opening : ∀ other ∈ front, isInert other = true) (said : isInert request = false)
      (unmarked : ∀ other ∈ headers, marker? other = none) (filled : ∀ other ∈ headers, trim other.toList ≠ [])
      (comment : IsComment line) :
      Edit (front ++ request :: (headers ++ rest)) (front ++ request :: (headers ++ line :: rest))
  /-- A blank line or a comment is put into a section, behind its marker and some of its lines. -/
  | inside {front rest : List String} {line : String} (portion : Portion)
      (begun : ∃ other ∈ front, isInert other = false) (inert : isInert line = true) :
      Edit (front ++ (portion.texts ++ rest)) (front ++ (portion.texts ++ line :: rest))
  /-- Sections of different kinds are put in another order. -/
  | reorder {front : List String} {first second : List Portion} (begun : ∃ other ∈ front, isInert other = false)
      (distinct : (first.map Portion.place).Nodup) (perm : first.Perm second) :
      Edit (front ++ first.flatMap Portion.texts) (front ++ second.flatMap Portion.texts)

/-- The lines of a block are numbered one after the other. -/
def Block.Consecutive (block : Block) : Prop :=
  ∃ first, block.lines.map Line.number = List.range' first block.lines.length

/-- The blocks of a document have their lines numbered so. -/
theorem consecutive_of_blocks {document : String} {found : List Block} (accepted : blocks document = .ok found)
    {block : Block} (member : block ∈ found) : block.Consecutive := by
  obtain ⟨parts, tail, scan, layout, -, follows, rfl⟩ := exists_follows accepted
  obtain ⟨earlier, later, split⟩ := List.append_of_mem member
  obtain ⟨before, -, -, stands⟩ := follows.stands layout split
  obtain ⟨opening, closing, back, -, -, cut⟩ := stands.cut
  have inner : linesOf document = (before.flatMap Part.lines ++ [opening]) ++ (block.lines ++ closing :: back) := by
    rw [cut, List.append_assoc, List.singleton_append]
  have numbers := map_number_linesOf document
  rw [inner, List.map_append, List.length_append, ← List.range'_append_1] at numbers
  obtain ⟨-, behind⟩ := List.append_inj numbers (by simp)
  have length : (block.lines ++ closing :: back).length = block.lines.length + (back.length + 1) := List.length_append
  rw [List.map_append, length, ← List.range'_append_1] at behind
  exact ⟨_, (List.append_inj behind (by simp)).1⟩

/-! Lines of which nothing is read -/

variable {line : String} {draft last : Draft}

theorem IsComment.isInert (comment : IsComment line) : isInert line = true := by
  obtain ⟨rest, split⟩ := List.head?_eq_some_iff.mp comment
  rw [Script.isInert, split]
  rfl

theorem IsComment.trim_ne_nil (comment : IsComment line) : trim line.toList ≠ [] := by
  intro blank
  rw [IsComment, blank] at comment
  cases comment

/-- A blank line or a comment is no marker. -/
theorem marker?_of_isInert (inert : isInert line = true) : marker? line = none := by
  refine marker?_eq_none fun form member same => ?_
  have other : ∀ form ∈ markerForms, form.toList.head? = some '[' := by decide
  have first : ((trim line.toList).map lowerChar).head? = some '[' := same ▸ other form member
  unfold isInert at inert
  split at inert
  · next blank => simp [blank] at first
  · next c rest split =>
    obtain rfl : c = '#' := by simpa using inert
    rw [split, List.map_cons, List.head?_cons] at first
    exact absurd first (by decide)

/-- The sections that a marker can open. -/
theorem mem_of_marker? {place : Section} (marked : marker? line = some place) :
    place ∈ [Section.captures, .asserts, .options] := by
  unfold marker? at marked
  split at marked <;> cases marked <;> decide

/-- Among the headers a comment is passed over. -/
theorem Draft.next_comment (place : draft.place = .headers) (comment : IsComment line) :
    draft.next line = .ok draft := by
  have filled : (trimmed line).isEmpty = false := by
    simpa [← String.toList_inj] using comment.trim_ne_nil
  unfold Draft.next Draft.addLine
  simp only [marker?_of_isInert comment.isInert, place, filled, comment.isInert, Bool.false_eq_true, if_false, if_true]

/-- In a section with a marker a blank line and a comment are passed over. -/
theorem Draft.next_inert (place : draft.place ∈ [Section.captures, .asserts, .options])
    (inert : isInert line = true) : draft.next line = .ok draft := by
  simp only [List.mem_cons, List.not_mem_nil, or_false] at place
  unfold Draft.next Draft.addLine
  rcases place with place | place | place <;> simp only [marker?_of_isInert inert, place, inert, if_true]

/-- The headers go on until a marker or a blank line. -/
theorem Draft.place_headers {headers : List String} (unmarked : ∀ other ∈ headers, marker? other = none)
    (filled : ∀ other ∈ headers, trim other.toList ≠ []) (place : draft.place = .headers)
    (read : headers.foldlM Draft.next draft = .ok last) : last.place = .headers := by
  induction headers generalizing draft with
  | nil =>
    cases read
    exact place
  | cons line rest ih =>
    rw [List.forall_mem_cons] at unmarked filled
    rw [List.foldlM_cons, bind_eq_ok_iff] at read
    obtain ⟨between, first, later⟩ := read
    refine ih unmarked.2 filled.2 ?_ later
    have some : (trimmed line).isEmpty = false := by simpa [← String.toList_inj] using filled.1
    unfold Draft.next Draft.addLine at first
    simp only [unmarked.1, place, some, Bool.false_eq_true, if_false] at first
    split at first
    · cases first
      exact place
    · split at first
      · cases first
        rfl
      · cases first

/-! What a section adds to a draft -/

/-- The options and the id of a step after a setting. -/
def Setting.after (made : StepOptions × Option String) : Setting → StepOptions × Option String
  | .id text => (made.1, some text)
  | .timeout millis => ({ made.1 with timeout := some millis }, made.2)
  | .retry count => ({ made.1 with retry := count }, made.2)
  | .retryWait millis => ({ made.1 with retryWait := millis }, made.2)

/-- What is read of a section. -/
inductive Gain where
  | captures (added : List Capture)
  | asserts (added : List Assertion)
  | settings (made : List Setting)

namespace Gain

/-- The section in which it is read. -/
def place : Gain → Section
  | captures _ => .captures
  | asserts _ => .asserts
  | settings _ => .options

/-- A draft with what is read of one more section. -/
def onto (draft : Draft) : Gain → Draft
  | captures added => { draft with place := .captures, captures := draft.captures ++ added }
  | asserts added => { draft with place := .asserts, asserts := draft.asserts ++ added }
  | settings made =>
    let set := made.foldl Setting.after (draft.options, draft.id)
    { draft with place := .options, options := set.1, id := set.2 }

/-- A section without lines adds nothing. -/
theorem exists_none {place : Section} (marked : place ∈ [Section.captures, .asserts, .options]) :
    ∃ gain : Gain, gain.place = place ∧ ∀ draft, gain.onto draft = { draft with place } := by
  simp only [List.mem_cons, List.not_mem_nil, or_false] at marked
  rcases marked with rfl | rfl | rfl
  · exact ⟨captures [], rfl, fun draft => by simp [onto]⟩
  · exact ⟨asserts [], rfl, fun draft => by simp [onto]⟩
  · exact ⟨settings [], rfl, fun draft => rfl⟩

/-- A section has been read in its own place. -/
theorem with_place (gain : Gain) (draft : Draft) : { gain.onto draft with place := gain.place } = gain.onto draft := by
  cases gain <;> rfl

/-- What two sections of one kind add is added by one section. -/
theorem exists_both {first second : Gain} (same : first.place = second.place) :
    ∃ both : Gain, both.place = first.place ∧ ∀ draft, both.onto draft = second.onto (first.onto draft) := by
  cases first with
  | captures front =>
    cases second with
    | captures back => exact ⟨captures (front ++ back), rfl, fun draft => by simp [onto]⟩
    | asserts | settings => cases same
  | asserts front =>
    cases second with
    | asserts back => exact ⟨asserts (front ++ back), rfl, fun draft => by simp [onto]⟩
    | captures | settings => cases same
  | settings front =>
    cases second with
    | settings back => exact ⟨settings (front ++ back), rfl, fun draft => by simp [onto]⟩
    | captures | asserts => cases same

/-- Two sections of different kinds add the same in either order. -/
theorem onto_comm {first second : Gain} (apart : first.place ≠ second.place) (draft : Draft) :
    first.onto (second.onto draft) = { second.onto (first.onto draft) with place := first.place } := by
  cases first <;> cases second
  case captures.captures | asserts.asserts | settings.settings => exact absurd rfl apart
  all_goals rfl

end Gain

/-- A line of a section adds the same to every draft. -/
theorem Draft.exists_gain_of_next {place : Section} (marked : place ∈ [Section.captures, .asserts, .options])
    (unmarked : marker? line = none) (read : ({ draft with place } : Draft).next line = .ok last) :
    ∃ gain : Gain, gain.place = place ∧
      ∀ other : Draft, ({ other with place } : Draft).next line = .ok (gain.onto other) := by
  by_cases inert : isInert line = true
  · obtain ⟨gain, same, none⟩ := Gain.exists_none marked
    refine ⟨gain, same, fun other => ?_⟩
    rw [none]
    exact next_inert marked inert
  have addLine (other : Draft) : other.next line = other.addLine line := by simp only [Draft.next, unmarked]
  simp only [addLine, Draft.addLine, inert] at read ⊢
  simp only [List.mem_cons, List.not_mem_nil, or_false] at marked
  rcases marked with rfl | rfl | rfl
  · obtain ⟨capture, found, -⟩ := bind_eq_ok_iff.mp read
    refine ⟨.captures [capture], rfl, fun other => ?_⟩
    rw [found]
    rfl
  · cases found : Assertion.parse (trimmed line) with
    | ok assertion => exact ⟨.asserts [assertion], rfl, fun other => rfl⟩
    | error fault => simp [found] at read
  · obtain ⟨setting, found, -⟩ := bind_eq_ok_iff.mp read
    refine ⟨.settings [setting], rfl, fun other => ?_⟩
    rw [found]
    cases setting <;> rfl

/-- All lines of a section add the same to every draft. -/
theorem Draft.exists_gain_of_foldlM {place : Section} (marked : place ∈ [Section.captures, .asserts, .options])
    {lines : List String} (unmarked : ∀ line ∈ lines, marker? line = none)
    (read : lines.foldlM Draft.next ({ draft with place } : Draft) = .ok last) :
    ∃ gain : Gain, gain.place = place ∧
      ∀ other : Draft, lines.foldlM Draft.next ({ other with place } : Draft) = .ok (gain.onto other) := by
  induction lines generalizing draft with
  | nil =>
    obtain ⟨gain, same, none⟩ := Gain.exists_none marked
    refine ⟨gain, same, fun other => ?_⟩
    rw [none]
    rfl
  | cons line rest ih =>
    rw [List.forall_mem_cons] at unmarked
    rw [List.foldlM_cons, bind_eq_ok_iff] at read
    obtain ⟨between, here, later⟩ := read
    obtain ⟨first, rfl, adds⟩ := exists_gain_of_next marked unmarked.1 here
    obtain rfl : first.onto draft = between := Except.ok.inj ((adds draft).symm.trans here)
    rw [← first.with_place] at later
    obtain ⟨second, same, addRest⟩ := ih unmarked.2 later
    obtain ⟨both, place, together⟩ := Gain.exists_both same.symm
    refine ⟨both, place, fun other => ?_⟩
    rw [foldlM_next_cons _ (adds other), together, ← addRest, first.with_place]

namespace Portion

/-- A portion adds the same to every draft. -/
theorem exists_gain (portion : Portion) (read : portion.texts.foldlM Draft.next draft = .ok last) :
    ∃ gain : Gain, gain.place = portion.place ∧
      ∀ other : Draft, portion.texts.foldlM Draft.next other = .ok (gain.onto other) := by
  have opens (other : Draft) := Draft.foldlM_next_cons _ (Draft.next_marker other portion.marked) portion.lines
  obtain ⟨gain, place, adds⟩ :=
    Draft.exists_gain_of_foldlM (mem_of_marker? portion.marked) portion.unmarked ((opens draft).symm.trans read)
  exact ⟨gain, place, fun other => (opens other).trans (adds other)⟩

/-- The place in which a draft is left does not matter to a portion. -/
theorem foldlM_place {portions : List Portion} (place : Section)
    (read : (portions.flatMap texts).foldlM Draft.next draft = .ok last) :
    ∃ other, (portions.flatMap texts).foldlM Draft.next { draft with place } = .ok { last with place := other } := by
  cases portions with
  | nil =>
    cases read
    exact ⟨place, rfl⟩
  | cons portion rest =>
    refine ⟨last.place, ?_⟩
    have opens (other : Draft) := Draft.foldlM_next_cons _ (Draft.next_marker other portion.marked)
      (portion.lines ++ rest.flatMap texts)
    exact (opens { draft with place }).trans ((opens draft).symm.trans read)

/-- Portions of different sections add the same in any order. -/
theorem foldlM_perm {first second : List Portion} (perm : first.Perm second) (distinct : (first.map place).Nodup)
    (read : (first.flatMap texts).foldlM Draft.next draft = .ok last) :
    ∃ place, (second.flatMap texts).foldlM Draft.next draft = .ok { last with place } := by
  induction perm generalizing draft last with
  | nil => exact ⟨last.place, read⟩
  | cons portion perm ih =>
    rw [List.flatMap_cons, List.foldlM_append, bind_eq_ok_iff] at read
    obtain ⟨between, here, later⟩ := read
    obtain ⟨place, others⟩ := ih (List.nodup_cons.mp distinct).2 later
    exact ⟨place, by rw [List.flatMap_cons, Draft.foldlM_next_append _ here, others]⟩
  | swap portion next rest =>
    simp only [List.flatMap_cons, List.foldlM_append, bind_eq_ok_iff] at read
    obtain ⟨_, here, _, there, later⟩ := read
    obtain ⟨gain, place, adds⟩ := exists_gain _ here
    obtain ⟨more, nextPlace, addMore⟩ := exists_gain _ there
    obtain rfl := Except.ok.inj ((adds draft).symm.trans here)
    obtain rfl := Except.ok.inj ((addMore _).symm.trans there)
    -- The two portions belong to different sections, so what they add is the same in either order.
    have apart : gain.place ≠ more.place := by
      rw [place, nextPlace]
      exact fun same => (List.nodup_cons.mp distinct).1 (same ▸ List.mem_cons_self)
    obtain ⟨last, others⟩ := foldlM_place gain.place later
    refine ⟨last, ?_⟩
    rw [List.flatMap_cons, List.flatMap_cons, Draft.foldlM_next_append _ (addMore draft),
      Draft.foldlM_next_append _ (adds _), Gain.onto_comm apart, others]
  | trans before behind ihBefore ihBehind =>
    obtain ⟨place, between⟩ := ihBefore distinct read
    obtain ⟨other, all⟩ := ihBehind ((before.map _).nodup_iff.mp distinct) between
    exact ⟨other, all⟩

end Portion

/-! The reading of a block by its lines alone -/

/-- What is read of the lines of a block: its request line and what stands behind it. -/
def Reads (texts : List String) (method : Method) (url : String) (draft : Draft) : Prop :=
  ∃ request behind, texts.dropWhile isInert = request :: behind ∧ readRequestLine request = .ok (method, url) ∧
    behind.foldlM Draft.next {} = .ok draft

variable {method : Method} {url : String}

/-- The number of its request line tells which lines of a block stand behind it. -/
theorem Block.Consecutive.step_eq_ok_iff {block : Block} (consecutive : block.Consecutive) {step : Step} :
    block.step = .ok step ↔ ∃ method url draft, Reads (block.lines.map Line.text) method url draft ∧
      block.assemble method url draft = step := by
  obtain ⟨first, numbers⟩ := consecutive
  have distinct : (block.lines.map Line.number).Nodup := numbers ▸ List.nodup_range'
  have same (request : Line) (found : block.lines.find? (!isInert ·.text) = some request) :
      (block.lines.map Line.text).dropWhile isInert = request.text :: block.behind request := by
    obtain ⟨said, ahead, behind, split, inert⟩ := List.find?_eq_some_iff_append.mp found
    have other : ∀ line ∈ ahead, (line.number != request.number) = true := fun line member => by
      rw [split, List.map_append, List.nodup_append] at distinct
      simpa using distinct.2.2 _ (List.mem_map_of_mem member) _ (by simp)
    have quiet : ∀ text ∈ ahead.map Line.text, isInert text = true := by
      simpa using inert
    rw [Block.behind, split, List.map_append, List.map_cons, List.dropWhile_append_of_pos quiet,
      List.dropWhile_cons_of_neg (by simpa using said), List.dropWhile_append_of_pos other,
      List.dropWhile_cons_of_neg (by simp), List.drop_one, List.tail_cons]
  rw [Block.step_eq_ok_iff]
  constructor
  · rintro ⟨request, method, url, draft, found, requestLine, read, whole⟩
    exact ⟨method, url, draft, ⟨_, _, same request found, requestLine, read⟩, whole⟩
  · rintro ⟨method, url, draft, ⟨text, behind, split, requestLine, read⟩, whole⟩
    cases found : block.lines.find? (!isInert ·.text) with
    | none =>
      have quiet : ∀ text ∈ block.lines.map Line.text, isInert text = true := by simpa using found
      rw [List.dropWhile_eq_nil_iff.mpr quiet] at split
      cases split
    | some request =>
      obtain ⟨rfl, rfl⟩ := List.cons.inj ((same request found).symm.trans split)
      exact ⟨request, method, url, draft, rfl, requestLine, read, whole⟩

/-- The lines behind the request line lead to a draft. -/
def Leads (texts : List String) (draft : Draft) : Prop :=
  ∃ request behind, texts.dropWhile isInert = request :: behind ∧ behind.foldlM Draft.next {} = .ok draft

/-- Behind the request line the lines of a block can be replaced by others of which the same is read. -/
theorem Reads.replace {front rest others : List String} (begun : ∃ other ∈ front, isInert other = false)
    (reads : Reads (front ++ rest) method url draft)
    (same : ∀ between, Leads front between → rest.foldlM Draft.next between = .ok draft →
      ∃ place, others.foldlM Draft.next between = .ok { draft with place }) :
    ∃ place, Reads (front ++ others) method url { draft with place } := by
  obtain ⟨request, behind, split, requestLine, read⟩ := reads
  cases dropped : front.dropWhile isInert with
  | nil =>
    obtain ⟨other, member, said⟩ := begun
    rw [List.dropWhile_eq_nil_iff.mp dropped other member] at said
    cases said
  | cons first ahead =>
    have drops (more : List String) : (front ++ more).dropWhile isInert = first :: (ahead ++ more) := by
      rw [List.dropWhile_append, dropped]
      rfl
    obtain ⟨rfl, rfl⟩ := List.cons.inj ((drops rest).symm.trans split)
    rw [List.foldlM_append, bind_eq_ok_iff] at read
    obtain ⟨between, leads, later⟩ := read
    obtain ⟨place, replaced⟩ := same between ⟨first, ahead, dropped, leads⟩ later
    exact ⟨place, first, _, drops others, requestLine, by rw [Draft.foldlM_next_append _ leads, replaced]⟩

/-- Behind the request line and some headers there is a place for more of them. -/
theorem Leads.place_headers {front headers : List String} {request : String}
    (opening : ∀ other ∈ front, isInert other = true) (said : isInert request = false)
    (unmarked : ∀ other ∈ headers, marker? other = none) (filled : ∀ other ∈ headers, trim other.toList ≠ [])
    (leads : Leads (front ++ request :: headers) draft) : draft.place = .headers := by
  obtain ⟨first, behind, split, read⟩ := leads
  rw [List.dropWhile_append_of_pos opening, List.dropWhile_cons_of_neg (by simp [said])] at split
  obtain ⟨rfl, rfl⟩ := List.cons.inj split
  exact Draft.place_headers unmarked filled rfl read

/-- A blank line or a comment behind some lines of a portion adds nothing to it. -/
theorem Portion.foldlM_inert (portion : Portion) (inert : isInert line = true) {rest : List String}
    (read : (portion.texts ++ rest).foldlM Draft.next draft = .ok last) :
    (portion.texts ++ line :: rest).foldlM Draft.next draft = .ok last := by
  rw [List.foldlM_append, bind_eq_ok_iff] at read
  obtain ⟨between, here, later⟩ := read
  obtain ⟨gain, place, adds⟩ := portion.exists_gain here
  obtain rfl := Except.ok.inj ((adds draft).symm.trans here)
  have marked : (gain.onto draft).place ∈ [Section.captures, .asserts, .options] := by
    rw [← gain.with_place, place]
    exact mem_of_marker? portion.marked
  rw [Draft.foldlM_next_append _ here, Draft.foldlM_next_cons _ (Draft.next_inert marked inert), later]

/-- An edit changes nothing of what is read, but the section that comes last. -/
theorem Edit.reads {before after : List String} (edit : Edit before after) (reads : Reads before method url draft) :
    ∃ place, Reads after method url { draft with place } := by
  cases edit with
  | ahead opening inert =>
    obtain ⟨request, behind, split, read⟩ := reads
    refine ⟨draft.place, request, behind, ?_, read⟩
    rw [List.dropWhile_append_of_pos opening] at split ⊢
    rw [List.dropWhile_cons_of_pos inert, split]
  | @header front headers rest request line opening said unmarked filled comment =>
    have assoc (more : List String) : front ++ request :: (headers ++ more) = (front ++ request :: headers) ++ more := by
      rw [List.append_assoc, List.cons_append]
    rw [assoc] at reads ⊢
    refine reads.replace ⟨request, by simp, said⟩ fun between leads later => ⟨draft.place, ?_⟩
    have place := leads.place_headers opening said unmarked filled
    rw [Draft.foldlM_next_cons _ (Draft.next_comment place comment), later]
  | inside portion begun inert =>
    exact reads.replace begun fun between _ later => ⟨draft.place, portion.foldlM_inert inert later⟩
  | reorder begun distinct perm =>
    exact reads.replace begun fun between _ later => Portion.foldlM_perm perm distinct later

/-- Any number of edits changes nothing of what is read, but the section that comes last. -/
theorem reads_of_edits {before after : List String} (edits : Relation.ReflTransGen Edit before after)
    (reads : Reads before method url draft) : ∃ place, Reads after method url { draft with place } := by
  induction edits with
  | refl => exact ⟨draft.place, reads⟩
  | tail _ edit ih =>
    obtain ⟨_, between⟩ := ih
    obtain ⟨place, after⟩ := edit.reads between
    exact ⟨place, after⟩

/-- Comments, blank lines and the order of the sections do not matter: whatever edits of these kinds are made to an
accepted block, under whatever numbers its lines have then, its step is the same. -/
theorem Block.step_edited {block edited : Block} (consecutive : block.Consecutive) (renumbered : edited.Consecutive)
    (number : edited.number = block.number) (title : edited.title = block.title)
    (edits : Relation.ReflTransGen Edit (block.lines.map Line.text) (edited.lines.map Line.text)) {step : Step}
    (accepted : block.step = .ok step) : edited.step = .ok step := by
  obtain ⟨method, url, draft, reads, whole⟩ := consecutive.step_eq_ok_iff.mp accepted
  obtain ⟨place, same⟩ := reads_of_edits edits reads
  refine renumbered.step_eq_ok_iff.mpr ⟨method, url, _, same, ?_⟩
  have label : edited.label = block.label := by rw [Block.label, Block.label, number, title]
  rw [← whole, Block.assemble, Block.assemble, number, label]
  rfl

/-- A block with a header and two sections. -/
def order : Block where
  number := 1
  title := some "order"
  line := 4
  lines := [⟨5, "POST /orders"⟩, ⟨6, "Accept: text/plain"⟩, ⟨7, "[Captures]"⟩, ⟨8, "order: $.id"⟩, ⟨9, "[Options]"⟩,
    ⟨10, "retry: 2"⟩]

/-- The same block with comments and a blank line, and with its sections the other way round. -/
def commented : Block where
  number := 1
  title := some "order"
  line := 20
  lines := [⟨21, "# buys something"⟩, ⟨22, "POST /orders"⟩, ⟨23, "Accept: text/plain"⟩, ⟨24, " # no other header"⟩,
    ⟨25, "[Options]"⟩, ⟨26, "retry: 2"⟩, ⟨27, ""⟩, ⟨28, "[Captures]"⟩, ⟨29, "order: $.id"⟩]

/-- The edited block has the step of the block. -/
theorem commented_step : ∃ step, order.step = .ok step ∧ commented.step = .ok step := by
  have accepted : order.step.toOption.isSome = true := by decide +kernel
  have opened : ∃ other ∈ ["# buys something", "POST /orders", "Accept: text/plain", " # no other header"],
      isInert other = false := by decide
  let captures : Portion := ⟨.captures, "[Captures]", ["order: $.id"], by decide, by decide⟩
  let options : Portion := ⟨.options, "[Options]", ["retry: 2"], by decide, by decide⟩
  let spaced : Portion := ⟨.options, "[Options]", ["retry: 2", ""], by decide, by decide⟩
  have ahead := @Edit.ahead [] (order.lines.map Line.text) "# buys something" (by decide) (by decide)
  have header := @Edit.header ["# buys something"] ["Accept: text/plain"] (captures.texts ++ options.texts)
    "POST /orders" " # no other header" (by decide) (by decide) (by decide) (by decide) (by decide)
  have inside := @Edit.inside (["# buys something", "POST /orders", "Accept: text/plain", " # no other header"] ++
    captures.texts) [] "" options (by decide) (by decide)
  have reorder := @Edit.reorder ["# buys something", "POST /orders", "Accept: text/plain", " # no other header"]
    [captures, spaced] [spaced, captures] opened (by decide) (.swap _ _ [])
  have consecutive : order.Consecutive := ⟨5, rfl⟩
  have renumbered : commented.Consecutive := ⟨21, rfl⟩
  cases read : order.step with
  | error error => simp [read, Except.toOption] at accepted
  | ok step =>
    exact ⟨step, rfl, Block.step_edited consecutive renumbered rfl rfl
      (.head ahead (.head header (.head inside (.single reorder)))) read⟩

end Runbook.Script

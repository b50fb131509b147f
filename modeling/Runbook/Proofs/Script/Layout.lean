import Mathlib.Data.List.DropRight
import Runbook.Proofs.Script.Heading

/-!
Documents as parts: lines outside all fences, and fences with the lines that they enclose. Every document has exactly
one layout, which may end in a fence that is not closed. The parts behind the last request block are where the heading
of the next one stands.
-/

namespace Runbook.Script

open Runbook.Text

/-- This line opens a fence. -/
def Line.Opens (line : Line) : Prop := ∃ info, trim line.text.toList = fence ++ info

/-- This line closes a fence. -/
def Line.Closes (line : Line) : Prop := trim line.text.toList = fence

/-- This line opens a request block: a request tag, in any case, stands behind its backticks. -/
def Line.Requests (line : Line) : Prop :=
  ∃ info, trim line.text.toList = fence ++ info ∧ String.ofList ((trim info).map lowerChar) ∈ requestTags

instance (line : Line) : Decidable line.Closes := inferInstanceAs (Decidable (_ = _))

instance (line : Line) : Decidable line.Requests :=
  decidable_of_iff (∃ info ∈ afterFront? fence (trim line.text.toList),
    String.ofList ((trim info).map lowerChar) ∈ requestTags) (by simp [Line.Requests, afterFront?_eq_some_iff])

/-- A part of a document: a line outside all fences, or a fence and what it encloses. -/
inductive Part where
  | plain (line : Line)
  | fenced (opening : Line) (inner : List Line) (closing : Line)

namespace Part

/-- The lines of a part. -/
def lines : Part → List Line
  | plain line => [line]
  | fenced opening inner closing => opening :: (inner ++ [closing])

/-- A line outside all fences opens none, and a fence is closed by the first line that can close it. -/
def Sound : Part → Prop
  | plain line => ¬line.Opens
  | fenced opening inner closing => opening.Opens ∧ (∀ line ∈ inner, ¬line.Closes) ∧ closing.Closes

/-- This part is a request block. -/
def Requests : Part → Prop
  | plain _ => False
  | fenced opening _ _ => opening.Requests

instance : DecidablePred Requests
  | plain _ => inferInstanceAs (Decidable False)
  | fenced opening _ _ => inferInstanceAs (Decidable opening.Requests)

/-- This part is the heading of a step, with these digits and this title. -/
def Heads (digits text : List Char) : Part → Prop
  | plain line => IsHeading (trim line.text.toList) digits text
  | fenced _ _ _ => False

/-- The number and title of the heading that a part is. -/
def heading? : Part → Option (Nat × String)
  | plain line => Script.heading? (trim line.text.toList)
  | fenced _ _ _ => none

end Part

/-- A fence at the end of a document that is not closed. -/
inductive IsOpen : List Line → Prop
  | fenced {opening : Line} {inner : List Line} (opens : opening.Opens) (unclosed : ∀ line ∈ inner, ¬line.Closes) :
      IsOpen (opening :: inner)

/-- Lines are those of their parts, and at the end those of a fence that is not closed. -/
structure IsLayout (lines : List Line) (parts : List Part) (tail : List Line) : Prop where
  sound : ∀ part ∈ parts, part.Sound
  lines : lines = parts.flatMap Part.lines ++ tail
  ending : tail = [] ∨ IsOpen tail

/-- The parts behind the last request block. -/
def since (parts : List Part) : List Part := parts.rtakeWhile fun part => !decide part.Requests

variable {lines tail otherTail : List Line} {parts others : List Part} {part : Part} {line : Line}

theorem Line.Requests.opens (requests : line.Requests) : line.Opens :=
  requests.imp fun _ => And.left

theorem Line.opens_iff : line.Opens ↔ (afterFront? fence (trim line.text.toList)).isSome := by
  simp [Line.Opens, Option.isSome_iff_exists, afterFront?_eq_some_iff]

/-- What stands up to the first line that closes a fence. -/
theorem exists_closing (lines : List Line) : (∀ line ∈ lines, ¬line.Closes) ∨
    ∃ inner closing back, lines = inner ++ closing :: back ∧ (∀ line ∈ inner, ¬line.Closes) ∧ closing.Closes := by
  obtain ⟨inner, unclosed, stops, whole⟩ := exists_run (fun line : Line => !decide line.Closes) lines
  generalize lines.dropWhile (fun line : Line => !decide line.Closes) = rest at stops whole
  cases rest with
  | nil => exact .inl (by simpa [whole] using unclosed)
  | cons closing back => exact .inr ⟨inner, closing, back, whole, by simpa using unclosed, by simpa using stops⟩

/-- Every document has a layout. -/
theorem exists_layout (lines : List Line) : ∃ parts tail, IsLayout lines parts tail := by
  induction length : lines.length using Nat.strongRecOn generalizing lines with
  | _ length ih =>
    subst length
    cases lines with
    | nil => exact ⟨[], [], by simp, rfl, .inl rfl⟩
    | cons line rest =>
      by_cases opens : line.Opens
      · rcases exists_closing rest with unclosed | ⟨inner, closing, back, rfl, unclosed, closes⟩
        · exact ⟨[], line :: rest, by simp, rfl, .inr (.fenced opens unclosed)⟩
        · obtain ⟨parts, tail, layout⟩ := ih back.length (by simp; omega) back rfl
          refine ⟨.fenced line inner closing :: parts, tail, ?_, ?_, layout.ending⟩
          · exact List.forall_mem_cons.mpr ⟨⟨opens, unclosed, closes⟩, layout.sound⟩
          · simp [layout.lines, Part.lines]
      · obtain ⟨parts, tail, layout⟩ := ih rest.length (by simp) rest rfl
        refine ⟨.plain line :: parts, tail, ?_, ?_, layout.ending⟩
        · exact List.forall_mem_cons.mpr ⟨opens, layout.sound⟩
        · simp [layout.lines, Part.lines]

/-- A fence that is not closed is no part. -/
theorem Part.Sound.append_ne (sound : part.Sound) (isOpen : IsOpen tail) (rest : List Line) :
    part.lines ++ rest ≠ tail := by
  cases isOpen with
  | fenced opens unclosed =>
    intro same
    cases part with
    | plain line =>
      obtain ⟨rfl, -⟩ := List.cons.inj same
      exact sound opens
    | fenced opening inner closing =>
      obtain ⟨rfl, behind⟩ := List.cons.inj same
      exact unclosed closing (by simp [← behind]) sound.2.2

/-- Lines start with one part at most. -/
theorem Part.Sound.unique {other : Part} {rest otherRest : List Line} (sound : part.Sound) (otherSound : other.Sound)
    (same : part.lines ++ rest = other.lines ++ otherRest) : part = other ∧ rest = otherRest := by
  have taken {inner back : List Line} {closing : Line} (unclosed : ∀ line ∈ inner, ¬line.Closes)
      (closes : closing.Closes) : (inner ++ closing :: back).takeWhile (fun line => !decide line.Closes) = inner :=
    takeWhile_run (by simpa using unclosed) (by simpa using closes)
  cases part with
  | plain line =>
    cases other with
    | plain other =>
      obtain ⟨rfl, behind⟩ := List.cons.inj same
      exact ⟨rfl, behind⟩
    | fenced opening inner closing =>
      obtain ⟨rfl, -⟩ := List.cons.inj same
      exact absurd otherSound.1 sound
  | fenced opening inner closing =>
    cases other with
    | plain other =>
      obtain ⟨rfl, -⟩ := List.cons.inj same
      exact absurd sound.1 otherSound
    | fenced otherOpening otherInner otherClosing =>
      obtain ⟨rfl, behind⟩ := List.cons.inj same
      have behind : inner ++ closing :: rest = otherInner ++ otherClosing :: otherRest := by simpa using behind
      have inside := congrArg (List.takeWhile fun line => !decide line.Closes) behind
      rw [taken sound.2.1 sound.2.2, taken otherSound.2.1 otherSound.2.2] at inside
      subst inside
      obtain ⟨rfl, rest⟩ := List.cons.inj (List.append_cancel_left behind)
      exact ⟨rfl, rest⟩

/-- The first part of a layout, and the layout of the lines behind it. -/
theorem IsLayout.exists_cons (layout : IsLayout lines (part :: parts) tail) :
    part.Sound ∧ ∃ rest, lines = part.lines ++ rest ∧ IsLayout rest parts tail := by
  have whole := layout.lines
  rw [List.flatMap_cons, List.append_assoc] at whole
  exact ⟨layout.sound part List.mem_cons_self, _, whole,
    fun other member => layout.sound other (List.mem_cons_of_mem _ member), rfl, layout.ending⟩

/-- Lines that are no more than an end that is not closed have no part. -/
theorem IsLayout.not_cons (layout : IsLayout lines [] tail) : ¬IsLayout lines (part :: parts) otherTail := by
  intro other
  obtain ⟨sound, rest, rfl, -⟩ := other.exists_cons
  rcases layout.ending with rfl | isOpen
  · cases part <;> exact nomatch layout.lines
  · exact sound.append_ne isOpen rest layout.lines

/-- A document has no more than one layout. -/
theorem IsLayout.unique (layout : IsLayout lines parts tail) (other : IsLayout lines others otherTail) :
    parts = others ∧ tail = otherTail := by
  induction parts generalizing lines others with
  | nil =>
    cases others with
    | nil => exact ⟨rfl, layout.lines.symm.trans other.lines⟩
    | cons part others => exact absurd other layout.not_cons
  | cons part parts ih =>
    cases others with
    | nil => exact absurd layout other.not_cons
    | cons otherPart others =>
      obtain ⟨sound, rest, rfl, later⟩ := layout.exists_cons
      obtain ⟨otherSound, otherRest, same, otherLater⟩ := other.exists_cons
      obtain ⟨rfl, rfl⟩ := sound.unique otherSound same
      obtain ⟨rfl, ends⟩ := ih later otherLater
      exact ⟨rfl, ends⟩

end Runbook.Script

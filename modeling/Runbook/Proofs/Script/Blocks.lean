import Mathlib.Data.List.Forall2
import Runbook.Proofs.Script.Layout

/-!
The blocks of a document: each of them is a request fence of the layout of the document, in order, with the lines that
the fence encloses. The last heading behind the request fence before it names it; a block without a heading is numbered
after the greatest number so far.
-/

namespace Runbook.Script

open Runbook.Text

/-- A block holds what a request fence encloses, and stands where the fence opens. -/
inductive Block.Encloses : Block → Part → Prop
  | fenced {number : Nat} {title : Option String} {opening closing : Line} {inner : List Line}
      (requests : opening.Requests) :
      Block.Encloses ⟨number, title, opening.number, inner⟩ (.fenced opening inner closing)

/-- The greatest number of the blocks, or zero. -/
def greatest (blocks : List Block) : Nat := (blocks.map Block.number).foldl max 0

/-- A block is named by the last heading behind the request block before it. Without such a heading it has no title, and
its number is one more than the greatest number of the blocks before it, as long as that is a number of a step. -/
structure Block.IsNamed (block : Block) (before : List Part) (earlier : List Block) : Prop where
  headed : ∀ front part back digits text, since before = front ++ part :: back → part.Heads digits text →
    (∀ other ∈ back, ∀ digits text, ¬other.Heads digits text) → block.title = some (String.ofList text) ∧
      block.number = if digits.all isDigit = true ∧ decimalValue digits ≤ greatestNumber
        then decimalValue digits else 0
  unheaded : (∀ part ∈ since before, ∀ digits text, ¬part.Heads digits text) →
    block.title = none ∧ block.number = min (greatest earlier + 1) greatestNumber

variable {parts : List Part} {part : Part} {scan : Scan} {line : Line} {block : Block} {found : List Block}

theorem headingNumber_eq (digits : List Char) : headingNumber digits =
    if digits.all isDigit = true ∧ decimalValue digits ≤ greatestNumber then decimalValue digits else 0 := by
  simp only [headingNumber, Bool.and_eq_true, decide_eq_true_eq]

theorem Part.Heads.heading? {digits text : List Char} (heads : part.Heads digits text) :
    part.heading? = some (headingNumber digits, String.ofList text) := by
  cases part with
  | plain line => exact IsHeading.heading? heads
  | fenced => cases heads

theorem Part.heading?_eq_none (unheaded : ∀ digits text, ¬part.Heads digits text) : part.heading? = none := by
  cases part with
  | plain line =>
    by_contra some
    obtain ⟨heading, read⟩ := Option.ne_none_iff_exists'.mp some
    obtain ⟨digits, text, isHeading, -, -⟩ := exists_of_heading? read
    exact unheaded digits text isHeading
  | fenced => rfl

/-- The heading that names the next block behind these parts. -/
def pending? (parts : List Part) : Option (Nat × String) := ((since parts).filterMap Part.heading?).getLast?

theorem since_append_singleton (parts : List Part) (part : Part) :
    since (parts ++ [part]) = if part.Requests then [] else since parts ++ [part] := by
  by_cases requests : part.Requests <;> simp [since, requests]

/-- A part that is no request block may be another heading. -/
theorem pending?_append (other : ¬part.Requests) : pending? (parts ++ [part]) = part.heading?.or (pending? parts) := by
  rw [pending?, since_append_singleton, if_neg other, List.filterMap_append, List.getLast?_append]
  cases found : part.heading? <;> simp [found, pending?]

/-- No heading in front of a request block names the one behind it. -/
theorem pending?_append_request (requests : part.Requests) : pending? (parts ++ [part]) = none := by
  rw [pending?, since_append_singleton, if_pos requests]
  rfl

theorem greatest_append (blocks : List Block) (block : Block) :
    greatest (blocks ++ [block]) = max (greatest blocks) block.number := by
  simp [greatest]

namespace Scan

/-- The number of a block that is opened now. -/
def stepNumber (scan : Scan) : Nat :=
  match scan.heading with
  | some (number, _) => number
  | none => min (scan.highest + 1) greatestNumber

theorem openBlock_eq (scan : Scan) (line : Nat) : scan.openBlock line =
    ⟨.inside ⟨scan.stepNumber, scan.heading.map Prod.snd, line, []⟩, none, max scan.highest scan.stepNumber,
      scan.blocks⟩ := rfl

theorem heading?_fence (info : List Char) : heading? (fence ++ info) = none := rfl

theorem next_heading (outside : scan.place = .outside) {heading : Nat × String}
    (found : heading? (trim line.text.toList) = some heading) :
    scan.next line = { scan with heading := some heading } := by
  unfold next
  rw [outside]
  simp only [found]

/-- A line that is neither a heading nor opens a fence says nothing. -/
theorem next_plain (outside : scan.place = .outside) (unheaded : heading? (trim line.text.toList) = none)
    (shut : ¬line.Opens) : scan.next line = scan := by
  rw [Line.opens_iff, Option.not_isSome_iff_eq_none] at shut
  unfold next
  rw [outside]
  simp only [unheaded, shut]

theorem next_opens (outside : scan.place = .outside) (opens : line.Opens) : scan.next line =
    if line.Requests then scan.openBlock line.number else { scan with place := .prose } := by
  obtain ⟨info, text⟩ := opens
  have requests : line.Requests ↔ String.ofList ((trim info).map lowerChar) ∈ requestTags := by
    simp [Line.Requests, text]
  have front : afterFront? fence (fence ++ info) = some info := afterFront?_eq_some_iff.mpr rfl
  unfold next
  rw [outside]
  simp only [text, heading?_fence, front, requests, List.contains_iff_mem]

theorem next_inside (unclosed : ¬line.Closes) : next { scan with place := .inside block } line =
    { scan with place := .inside { block with lines := block.lines ++ [line] } } :=
  if_neg unclosed

theorem next_closes (closes : line.Closes) : next { scan with place := .inside block } line =
    { scan with place := .outside, blocks := scan.blocks ++ [block] } :=
  if_pos closes

/-- The lines up to the closing fence are kept in the block. -/
theorem foldl_inside {lines : List Line} (unclosed : ∀ line ∈ lines, ¬line.Closes) :
    lines.foldl next { scan with place := .inside block } =
      { scan with place := .inside { block with lines := block.lines ++ lines } } := by
  induction lines generalizing block with
  | nil => simp
  | cons line rest ih =>
    rw [List.foldl_cons, next_inside (unclosed line List.mem_cons_self),
      ih fun other member => unclosed other (List.mem_cons_of_mem _ member)]
    simp

/-- Prose is passed over up to its closing fence. -/
theorem foldl_prose {lines : List Line} (unclosed : ∀ line ∈ lines, ¬line.Closes) :
    lines.foldl next { scan with place := .prose } = { scan with place := .prose } := by
  induction lines with
  | nil => rfl
  | cons line rest ih =>
    have still : next { scan with place := .prose } line = { scan with place := .prose } :=
      if_neg (unclosed line List.mem_cons_self)
    rw [List.foldl_cons, still, ih fun other member => unclosed other (List.mem_cons_of_mem _ member)]

/-- A line outside all fences matters only as a heading. -/
theorem foldl_plain (outside : scan.place = .outside) (shut : ¬line.Opens) :
    (Part.plain line).lines.foldl next scan = { scan with heading := (Part.plain line).heading?.or scan.heading } := by
  rw [Part.lines, List.foldl_cons, List.foldl_nil, Part.heading?]
  cases found : heading? (trim line.text.toList) with
  | none => rw [next_plain outside found shut, Option.none_or]
  | some heading => rw [next_heading outside found, Option.some_or]

/-- A fence that is no request block leaves the scan as it is. -/
theorem foldl_fenced {opening closing : Line} {inner : List Line} (outside : scan.place = .outside)
    (sound : (Part.fenced opening inner closing).Sound) (other : ¬opening.Requests) :
    (Part.fenced opening inner closing).lines.foldl next scan = scan := by
  obtain ⟨opens, unclosed, closes⟩ := sound
  have ends : next { scan with place := .prose } closing = { scan with place := .outside } := if_pos closes
  rw [Part.lines, List.foldl_cons, List.foldl_append, next_opens outside opens, if_neg other, foldl_prose unclosed,
    List.foldl_cons, List.foldl_nil, ends, ← outside]

/-- A request fence gives a block. -/
theorem foldl_request {opening closing : Line} {inner : List Line} (outside : scan.place = .outside)
    (sound : (Part.fenced opening inner closing).Sound) (requests : opening.Requests) :
    (Part.fenced opening inner closing).lines.foldl next scan =
      ⟨.outside, none, max scan.highest scan.stepNumber,
        scan.blocks ++ [⟨scan.stepNumber, scan.heading.map Prod.snd, opening.number, inner⟩]⟩ := by
  obtain ⟨opens, unclosed, closes⟩ := sound
  rw [Part.lines, List.foldl_cons, List.foldl_append, next_opens outside opens, if_pos requests, openBlock_eq]
  have kept := @foldl_inside ⟨.outside, none, max scan.highest scan.stepNumber, scan.blocks⟩
    ⟨scan.stepNumber, scan.heading.map Prod.snd, opening.number, []⟩ _ unclosed
  have ends := @next_closes ⟨.outside, none, max scan.highest scan.stepNumber, scan.blocks⟩ closing
    ⟨scan.stepNumber, scan.heading.map Prod.snd, opening.number, inner⟩ closes
  rw [List.nil_append] at kept
  rw [kept, List.foldl_cons, List.foldl_nil, ends]

/-- A fence that is not closed leaves the scan in it. -/
theorem foldl_open {opening : Line} {inner : List Line} (outside : scan.place = .outside) (opens : opening.Opens)
    (unclosed : ∀ line ∈ inner, ¬line.Closes) : (opening :: inner).foldl next scan =
      if opening.Requests then
        ⟨.inside ⟨scan.stepNumber, scan.heading.map Prod.snd, opening.number, inner⟩, none,
          max scan.highest scan.stepNumber, scan.blocks⟩
      else { scan with place := .prose } := by
  rw [List.foldl_cons, next_opens outside opens]
  by_cases requests : opening.Requests
  · have kept := @foldl_inside ⟨.outside, none, max scan.highest scan.stepNumber, scan.blocks⟩
      ⟨scan.stepNumber, scan.heading.map Prod.snd, opening.number, []⟩ _ unclosed
    rw [if_pos requests, if_pos requests, openBlock_eq]
    exact kept
  · rw [if_neg requests, if_neg requests, foldl_prose unclosed]

/-- What a scan knows behind the parts that it has gone through. -/
structure Follows (scan : Scan) (parts : List Part) : Prop where
  place : scan.place = .outside
  heading : scan.heading = pending? parts
  highest : scan.highest = greatest scan.blocks
  encloses : List.Forall₂ Block.Encloses scan.blocks (parts.filter Part.Requests)
  named : ∀ earlier block later, scan.blocks = earlier ++ block :: later → ∃ before part after,
    parts = before ++ part :: after ∧ block.Encloses part ∧
      List.Forall₂ Block.Encloses earlier (before.filter Part.Requests) ∧ block.IsNamed before earlier

theorem follows_nil : Follows {} [] where
  place := rfl
  heading := rfl
  highest := rfl
  encloses := .nil
  named := fun _ _ _ split => absurd split (by simp)

/-- The block that is opened now has the right name. -/
theorem Follows.isNamed (follows : scan.Follows parts) {line : Nat} {lines : List Line} :
    Block.IsNamed ⟨scan.stepNumber, scan.heading.map Prod.snd, line, lines⟩ parts scan.blocks where
  headed := by
    intro front part back digits text split heads others
    have last : scan.heading = some (headingNumber digits, String.ofList text) := by
      have nothing : back.filterMap Part.heading? = [] :=
        List.filterMap_eq_nil_iff.mpr fun other member => Part.heading?_eq_none (others other member)
      rw [follows.heading, pending?, split, List.filterMap_append, List.filterMap_cons_some heads.heading?, nothing,
        List.getLast?_concat]
    refine ⟨congrArg (Option.map Prod.snd) last, ?_⟩
    rw [← headingNumber_eq]
    simp only [stepNumber, last]
  unheaded := by
    intro unheaded
    have none : scan.heading = none := by
      have nothing : (since parts).filterMap Part.heading? = [] :=
        List.filterMap_eq_nil_iff.mpr fun part member => Part.heading?_eq_none (unheaded part member)
      rw [follows.heading, pending?, nothing, List.getLast?_nil]
    refine ⟨congrArg (Option.map Prod.snd) none, ?_⟩
    simp only [stepNumber, none, follows.highest]

/-- A part that is no request block gives no block. -/
theorem Follows.skip (follows : scan.Follows parts) (other : ¬part.Requests) :
    Follows { scan with heading := part.heading?.or scan.heading } (parts ++ [part]) where
  place := follows.place
  heading := by rw [pending?_append other, follows.heading]
  highest := follows.highest
  encloses := by simpa [other] using follows.encloses
  named := by
    intro earlier block later split
    obtain ⟨before, own, after, rfl, named⟩ := follows.named earlier block later split
    exact ⟨before, own, after ++ [part], by simp, named⟩

/-- A request block gives one block. -/
theorem Follows.request (follows : scan.Follows parts) {opening closing : Line} {inner : List Line}
    (requests : opening.Requests) :
    Follows ⟨.outside, none, max scan.highest scan.stepNumber,
      scan.blocks ++ [⟨scan.stepNumber, scan.heading.map Prod.snd, opening.number, inner⟩]⟩
      (parts ++ [.fenced opening inner closing]) where
  place := rfl
  heading := (pending?_append_request (show (Part.fenced opening inner closing).Requests from requests)).symm
  highest := by rw [greatest_append, follows.highest]
  encloses := by
    have own : (Part.fenced opening inner closing).Requests := requests
    rw [List.filter_append, List.filter_cons_of_pos (by simpa using own)]
    exact List.rel_append follows.encloses (.cons (.fenced requests) .nil)
  named := by
    intro earlier block later split
    cases later using List.reverseRecOn with
    | nil =>
      obtain ⟨rfl, rest⟩ := List.append_inj' split rfl
      obtain rfl := (List.cons.inj rest).1
      exact ⟨parts, _, [], rfl, .fenced requests, follows.encloses, follows.isNamed⟩
    | append_singleton later last =>
      rw [← List.cons_append, ← List.append_assoc] at split
      obtain ⟨kept, -⟩ := List.append_inj' split rfl
      obtain ⟨before, own, after, rfl, named⟩ := follows.named earlier block later kept
      exact ⟨before, own, after ++ [.fenced opening inner closing], by simp, named⟩

/-- The scan of the lines of parts follows these parts. -/
theorem follows_foldl (sound : ∀ part ∈ parts, part.Sound) :
    ((parts.flatMap Part.lines).foldl next {}).Follows parts := by
  induction parts using List.reverseRecOn with
  | nil => exact follows_nil
  | append_singleton parts part ih =>
    rw [List.forall_mem_append, List.forall_mem_singleton] at sound
    obtain ⟨earlier, own⟩ := sound
    have follows := ih earlier
    rw [List.flatMap_append, List.flatMap_singleton, List.foldl_append]
    generalize (parts.flatMap Part.lines).foldl next {} = scan at follows
    cases part with
    | plain line =>
      rw [foldl_plain follows.place own]
      exact follows.skip fun requests => requests
    | fenced opening inner closing =>
      by_cases requests : opening.Requests
      · rw [foldl_request follows.place own requests]
        exact follows.request requests
      · rw [foldl_fenced follows.place own requests]
        have other : ¬(Part.fenced opening inner closing).Requests := requests
        exact follows.skip other

end Scan

variable {document : String} {lines : List Line} {before : List Part} {earlier : List Block}

/-- The lines of a document are its texts, numbered from one. -/
theorem getElem?_linesOf (document : String) (index : Nat) : (linesOf document)[index]? =
    (Text.lines document.toList)[index]?.map fun text => ⟨index + 1, String.ofList text⟩ :=
  List.getElem?_mapIdx

theorem map_text_linesOf (document : String) :
    (linesOf document).map Line.text = (Text.lines document.toList).map String.ofList := by
  refine List.ext_getElem? fun index => ?_
  simp only [linesOf, List.getElem?_map, List.getElem?_mapIdx, Option.map_map]
  rfl

theorem number_eq_of_linesOf {front back : List Line} (split : linesOf document = front ++ line :: back) :
    line.number = front.length + 1 := by
  have here : (linesOf document)[front.length]? = some line := by simp [split]
  rw [getElem?_linesOf] at here
  obtain ⟨text, -, rfl⟩ := Option.map_eq_some_iff.mp here
  rfl

/-- A block stands in the lines of a document, behind these parts of it and after these blocks. -/
structure Block.Stands (block : Block) (lines : List Line) (before : List Part) (earlier : List Block) : Prop where
  sound : ∀ part ∈ before, part.Sound
  cut : ∃ opening closing back, opening.Requests ∧ closing.Closes ∧
    lines = before.flatMap Part.lines ++ opening :: (block.lines ++ closing :: back)
  line : block.line = (before.flatMap Part.lines).length + 1
  unclosed : ∀ line ∈ block.lines, ¬line.Closes
  encloses : List.Forall₂ Block.Encloses earlier (before.filter Part.Requests)
  named : block.IsNamed before earlier

/-- An accepted document has a layout that the scan follows, and no request fence at its end is open. -/
theorem exists_follows (accepted : blocks document = .ok found) :
    ∃ (parts : List Part) (tail : List Line) (scan : Scan), IsLayout (linesOf document) parts tail ∧
      (∀ line ∈ tail.head?, ¬line.Requests) ∧ scan.Follows parts ∧ scan.blocks = found := by
  obtain ⟨parts, tail, layout⟩ := exists_layout (linesOf document)
  have follows := Scan.follows_foldl layout.sound
  unfold blocks at accepted
  rw [layout.lines, List.foldl_append] at accepted
  generalize (parts.flatMap Part.lines).foldl Scan.next {} = scan at accepted follows
  refine ⟨parts, tail, scan, layout, ?_⟩
  rcases layout.ending with rfl | ⟨opens, unclosed⟩
  · simp only [List.foldl_nil, follows.place, Except.ok.injEq] at accepted
    exact ⟨by simp, follows, accepted⟩
  · next opening inner =>
    rw [Scan.foldl_open follows.place opens unclosed] at accepted
    by_cases requests : opening.Requests
    · rw [if_pos requests] at accepted
      cases accepted
    · rw [if_neg requests] at accepted
      cases accepted
      exact ⟨by simpa using requests, follows, rfl⟩

/-- A block ends before the blocks behind it start. -/
theorem Block.Stands.lt_line {other : Block} (stands : block.Stands (linesOf document) before earlier)
    (member : other ∈ earlier) : other.line + other.lines.length + 1 < block.line := by
  obtain ⟨index, rfl⟩ := List.get_of_mem member
  have bound : index.val < (before.filter Part.Requests).length := stands.encloses.length_eq ▸ index.isLt
  have encloses := stands.encloses.get index.isLt bound
  have isPart : (before.filter Part.Requests).get ⟨index, bound⟩ ∈ before := List.mem_of_mem_filter (List.get_mem _ _)
  generalize (before.filter Part.Requests).get ⟨index, bound⟩ = part at encloses isPart
  generalize earlier.get ⟨index, index.isLt⟩ = other at encloses
  obtain ⟨front, back, rfl⟩ := List.append_of_mem isPart
  obtain ⟨opening, closing, rest, -, -, lines⟩ := stands.cut
  cases encloses with
  | @fenced _ _ first last inner requests =>
    have split : linesOf document = front.flatMap Part.lines ++ first :: (inner ++ last :: (back.flatMap Part.lines ++
        opening :: (block.lines ++ closing :: rest))) := by
      simp [lines, Part.lines]
    rw [stands.line, number_eq_of_linesOf split]
    simp [Part.lines]
    omega

/-- A block of an accepted document stands behind some parts of its layout. -/
theorem Scan.Follows.stands {tail : List Line} (layout : IsLayout (linesOf document) parts tail)
    (follows : scan.Follows parts) {later : List Block} (split : scan.blocks = earlier ++ block :: later) :
    ∃ before after, parts = before ++ after ∧ block.Stands (linesOf document) before earlier := by
  obtain ⟨before, part, after, rfl, encloses, ahead, named⟩ := follows.named earlier block later split
  cases encloses with
  | @fenced number title opening closing inner requests =>
    obtain ⟨-, unclosed, closes⟩ := layout.sound (.fenced opening inner closing) (by simp)
    have cut : linesOf document = before.flatMap Part.lines ++ opening :: (inner ++ closing ::
        (after.flatMap Part.lines ++ tail)) := by
      simp [layout.lines, Part.lines]
    exact ⟨before, _, rfl, fun part member => layout.sound part (List.mem_append_left _ member),
      ⟨opening, closing, _, requests, closes, cut⟩, number_eq_of_linesOf cut, unclosed, ahead, named⟩

/-- The blocks of an accepted document are its request fences: the document has a layout, each request fence of it gives
one block, in order, and what a block holds and how it is named is fixed by the lines in front of it. -/
theorem blocks_stand (accepted : blocks document = .ok found) :
    found.Pairwise (fun first second => first.line + first.lines.length + 1 < second.line) ∧
      (∀ index : Nat, (linesOf document)[index]? =
        (Text.lines document.toList)[index]?.map fun text => (⟨index + 1, String.ofList text⟩ : Line)) ∧
      ∃ parts tail, IsLayout (linesOf document) parts tail ∧
        (∀ others otherTail, IsLayout (linesOf document) others otherTail → others = parts ∧ otherTail = tail) ∧
        (∀ line ∈ tail.head?, ¬line.Requests) ∧ List.Forall₂ Block.Encloses found (parts.filter Part.Requests) ∧
        ∀ earlier block later, found = earlier ++ block :: later →
          ∃ before after, parts = before ++ after ∧ block.Stands (linesOf document) before earlier := by
  obtain ⟨parts, tail, scan, layout, ends, follows, rfl⟩ := exists_follows accepted
  have ordered : ∀ front, front <+: scan.blocks →
      front.Pairwise fun first second => first.line + first.lines.length + 1 < second.line := by
    intro front isFront
    induction front using List.reverseRecOn with
    | nil => exact .nil
    | append_singleton earlier block ih =>
      obtain ⟨later, split⟩ := isFront
      rw [List.append_assoc, List.singleton_append] at split
      obtain ⟨before, after, -, stands⟩ := follows.stands layout split.symm
      exact List.pairwise_append.mpr ⟨ih ⟨_, split⟩, List.pairwise_singleton _ _, fun other member last isLast =>
        List.mem_singleton.mp isLast ▸ stands.lt_line member⟩
  exact ⟨ordered _ (List.prefix_refl _), getElem?_linesOf document, parts, tail, layout,
    fun others otherTail other => other.unique layout, ends, follows.encloses,
    fun earlier block later split => follows.stands layout split⟩

/-- A document with a heading in prose, a block under a heading and a block without one. -/
def sample : String :=
  "```text\n## Step 9: in prose\n```\n## Step 2: log in\n``` HTTP\nGET /\n```\n```kest\nGET /next\n```\n"

theorem sample_blocks_stand :
    blocks sample = .ok [⟨2, some "log in", 5, [⟨6, "GET /"⟩]⟩, ⟨3, none, 8, [⟨9, "GET /next"⟩]⟩] ∧
      ∃ before, Block.Stands ⟨3, none, 8, [⟨9, "GET /next"⟩]⟩ (linesOf sample) before
        [⟨2, some "log in", 5, [⟨6, "GET /"⟩]⟩] := by
  have accepted : blocks sample =
      .ok [⟨2, some "log in", 5, [⟨6, "GET /"⟩]⟩, ⟨3, none, 8, [⟨9, "GET /next"⟩]⟩] := by
    rfl
  obtain ⟨-, -, _, _, -, -, -, -, stands⟩ := blocks_stand accepted
  obtain ⟨before, _, -, second⟩ := stands [⟨2, some "log in", 5, [⟨6, "GET /"⟩]⟩] _ [] rfl
  exact ⟨accepted, before, second⟩

end Runbook.Script

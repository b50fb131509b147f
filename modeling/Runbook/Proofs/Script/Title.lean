import Mathlib.Algebra.Group.Nat.Even
import Mathlib.Data.List.Infix
import Runbook.Proofs.Script.Blocks
import Runbook.Proofs.Script.Reading

/-!
The title of a document. To the reader of titles each line that starts with backticks opens or closes a fence, so a line
stands outside of fences if an even number of such lines stands in front of it. The scan for blocks stands outside of
fences at the same lines as long as no fence encloses a line that starts with backticks and does not close it.
-/

namespace Runbook.Script

open Runbook.Text

instance (line : Line) : Decidable line.Opens := decidable_of_iff _ Line.opens_iff.symm

/-- A line is a heading of the first level with this title, which is not empty and has no blanks around it. -/
def Line.Titles (line : Line) (title : String) : Prop :=
  ∃ rest, trim line.text.toList = ['#', ' '] ++ rest ∧ trim rest = title.toList ∧ title ≠ ""

/-- The first heading of the first level that stands outside of fences: whether a line does depends on the lines in
front of it. -/
def FirstTitle (outside : List Line → Prop) (lines : List Line) (title : String) : Prop :=
  ∃ front line back, lines = front ++ line :: back ∧ outside front ∧ line.Titles title ∧
    ∀ earlier other later, front = earlier ++ other :: later → outside earlier → ∀ text, ¬other.Titles text

/-- An even number of these lines starts with backticks. -/
def Paired (front : List Line) : Prop := Even (front.countP fun line => line.Opens)

/-- The scan for blocks stands outside of fences behind these lines. -/
def Unfenced (front : List Line) : Prop := (front.foldl Scan.next {}).place = .outside

instance : DecidablePred Paired := fun front => inferInstanceAs (Decidable (Even (front.countP _)))

instance : DecidablePred Unfenced := fun front => inferInstanceAs (Decidable ((front.foldl Scan.next {}).place = _))

/-- No fence encloses a line that starts with backticks and does not close it. -/
def Unnested (lines : List Line) : Prop :=
  ∀ front line back, lines = front ++ line :: back → ¬Unfenced front → line.Opens → line.Closes

variable {line : Line} {lines rest front : List Line} {title : String} {outside : List Line → Prop} {fenced : Bool}

theorem Line.Closes.opens (closes : line.Closes) : line.Opens := ⟨[], by rw [closes, List.append_nil]⟩

/-- A heading of the first level does not start with backticks. -/
theorem Line.Titles.not_opens (titles : line.Titles title) : ¬line.Opens := by
  obtain ⟨rest, text, -⟩ := titles
  rintro ⟨info, same⟩
  rw [text] at same
  cases same

theorem not_firstTitle_nil : ¬FirstTitle outside [] title := by
  rintro ⟨front, line, back, split, -⟩
  cases front <;> cases split

/-- The first title is that of the first line, or the first one behind it. -/
theorem firstTitle_cons : FirstTitle outside (line :: rest) title ↔ (outside [] ∧ line.Titles title) ∨
    ((outside [] → ∀ text, ¬line.Titles text) ∧ FirstTitle (fun front => outside (line :: front)) rest title) := by
  constructor
  · rintro ⟨front, other, back, split, stands, titles, first⟩
    cases front with
    | nil =>
      obtain ⟨rfl, rfl⟩ := List.cons.inj split
      exact .inl ⟨stands, titles⟩
    | cons head front =>
      obtain ⟨rfl, rfl⟩ := List.cons.inj split
      refine .inr ⟨first [] line front rfl, front, other, back, rfl, stands, titles, ?_⟩
      intro earlier next later inside
      exact first (line :: earlier) next later (by rw [inside, List.cons_append])
  · rintro (⟨stands, titles⟩ | ⟨plain, front, other, back, rfl, stands, titles, first⟩)
    · exact ⟨[], line, rest, rfl, stands, titles, by simp⟩
    · refine ⟨line :: front, other, back, rfl, stands, titles, ?_⟩
      intro earlier next later inside
      cases earlier with
      | nil =>
        obtain ⟨rfl, -⟩ := List.cons.inj inside
        exact plain
      | cons head earlier =>
        obtain ⟨rfl, behind⟩ := List.cons.inj inside
        exact first earlier next later behind

/-! The reader of titles -/

/-- The title among these lines, when a fence is open in front of them or not. -/
def titleFrom? (fenced : Bool) (lines : List Line) : Option String :=
  title?.go fenced (lines.map fun line => line.text.toList)

theorem title?_eq (document : String) : title? document = titleFrom? false (linesOf document) := by
  have texts : (linesOf document).map (fun line => line.text.toList) = Text.lines document.toList := by
    have same := congrArg (List.map String.toList) (map_text_linesOf document)
    rw [List.map_map, List.map_map] at same
    simpa [Function.comp_def] using same
  rw [titleFrom?, texts, title?]

theorem titleFrom?_opens (opens : line.Opens) : titleFrom? fenced (line :: rest) = titleFrom? (!fenced) rest := by
  rw [Line.opens_iff] at opens
  simp [titleFrom?, title?.go, opens]

theorem titleFrom?_fenced (shut : ¬line.Opens) : titleFrom? true (line :: rest) = titleFrom? true rest := by
  rw [Line.opens_iff] at shut
  simp [titleFrom?, title?.go, shut]

/-- The title of a heading of the first level is what stands behind its mark. -/
theorem titles_iff {text : List Char} (read : trim line.text.toList = ['#', ' '] ++ text) :
    line.Titles title ↔ trim text ≠ [] ∧ String.ofList (trim text) = title := by
  constructor
  · rintro ⟨rest, same, whole, filled⟩
    obtain rfl : text = rest := List.append_cancel_left (read.symm.trans same)
    rw [whole]
    exact ⟨by simpa using filled, String.ofList_toList⟩
  · rintro ⟨filled, rfl⟩
    exact ⟨text, read, by rw [String.toList_ofList], by simpa [← String.toList_inj] using filled⟩

/-- A line outside of fences gives the title, or has none. -/
theorem titleFrom?_outside (shut : ¬line.Opens) : titleFrom? false (line :: rest) = some title ↔
    line.Titles title ∨ (∀ text, ¬line.Titles text) ∧ titleFrom? false rest = some title := by
  rw [Line.opens_iff] at shut
  cases found : afterFront? ['#', ' '] (trim line.text.toList) with
  | none =>
    have plain : ∀ text, ¬line.Titles text := by
      rintro text ⟨more, read, -⟩
      rw [afterFront?_eq_some_iff.mpr read] at found
      cases found
    simp [titleFrom?, title?.go, shut, found, plain]
  | some text =>
    have titles := fun title => @titles_iff line title text (afterFront?_eq_some_iff.mp found)
    by_cases filled : trim text = []
    · simp [titleFrom?, title?.go, shut, found, titles, filled]
    · simp [titleFrom?, title?.go, shut, found, titles, filled]

/-- An even number of these lines starts with backticks if no fence is open in front of them, and otherwise an odd
one. -/
def Balanced (fenced : Bool) (front : List Line) : Prop :=
  Even (front.countP fun line => line.Opens) ↔ fenced = false

theorem balanced_cons : Balanced fenced (line :: front) ↔ if line.Opens then Balanced (!fenced) front else
    Balanced fenced front := by
  by_cases opens : line.Opens
  · cases fenced <;> simp [Balanced, opens, Nat.even_add_one]
  · simp [Balanced, opens]

/-- The reader of titles gives the first title of the lines that stand outside of fences, by induction on the lines; a
line that starts with backticks changes how many are needed to stand outside. -/
theorem titleFrom?_eq_some_iff : titleFrom? fenced lines = some title ↔ FirstTitle (Balanced fenced) lines title := by
  induction lines generalizing fenced with
  | nil => exact ⟨nofun, fun first => absurd first not_firstTitle_nil⟩
  | cons line rest ih =>
    have start : Balanced fenced [] ↔ fenced = false := by simp [Balanced]
    by_cases opens : line.Opens
    · have untitled : ∀ text, ¬line.Titles text := fun text titles => titles.not_opens opens
      have turned : (fun front => Balanced fenced (line :: front)) = Balanced (!fenced) :=
        funext fun front => propext (by rw [balanced_cons, if_pos opens])
      rw [titleFrom?_opens opens, ih, firstTitle_cons, turned]
      simp [untitled]
    · have kept : (fun front => Balanced fenced (line :: front)) = Balanced fenced :=
        funext fun front => propext (by rw [balanced_cons, if_neg opens])
      rw [firstTitle_cons, kept, start, ← ih]
      cases fenced with
      | false => simpa using titleFrom?_outside opens
      | true => simp [titleFrom?_fenced opens]

theorem title?_eq_some_iff {document : String} :
    title? document = some title ↔ FirstTitle Paired (linesOf document) title := by
  have paired : Balanced false = Paired := funext fun front => propext (by simp [Balanced, Paired])
  rw [title?_eq, titleFrom?_eq_some_iff, paired]

/-! The scan for blocks -/

/-- A scan is outside of fences behind a line that opens none there, and behind one that closes the fence that it was
in. -/
theorem place_next_iff {scan : Scan} : (scan.next line).place = .outside ↔
    (scan.place = .outside ∧ ¬line.Opens) ∨ (scan.place ≠ .outside ∧ line.Closes) := by
  cases place : scan.place with
  | outside =>
    by_cases opens : line.Opens
    · rw [Scan.next_opens place opens]
      split <;> simp [opens, Scan.openBlock_eq]
    · have plain := Scan.foldl_plain place opens
      rw [Part.lines, List.foldl_cons, List.foldl_nil] at plain
      simp [plain, place, opens]
  | prose =>
    have own : scan.next line = if line.Closes then { scan with place := .outside } else scan := by
      unfold Scan.next
      rw [place]
      rfl
    rw [own]
    split <;> simp_all
  | inside block =>
    have own : { scan with place := .inside block } = scan := by rw [← place]
    by_cases closes : line.Closes
    · rw [← own, Scan.next_closes closes]
      simp [closes]
    · rw [← own, Scan.next_inside closes]
      simp [closes]

theorem unfenced_append :
    Unfenced (front ++ [line]) ↔ (Unfenced front ∧ ¬line.Opens) ∨ (¬Unfenced front ∧ line.Closes) := by
  rw [Unfenced, List.foldl_append]
  exact place_next_iff

theorem paired_append : Paired (front ++ [line]) ↔ (Paired front ↔ ¬line.Opens) := by
  by_cases opens : line.Opens <;> simp [Paired, opens, Nat.even_add_one]

/-- Where no fence is nested, the reader of titles and the scan for blocks stand outside of fences behind the same
lines, by induction on these from the last one on. -/
theorem Unnested.paired_iff (unnested : Unnested lines) (isFront : front <+: lines) :
    Paired front ↔ Unfenced front := by
  induction front using List.reverseRecOn with
  | nil => exact iff_of_true Even.zero rfl
  | append_singleton front line ih =>
    obtain ⟨back, split⟩ := isFront
    rw [List.append_assoc] at split
    have before := ih ⟨[line] ++ back, split⟩
    have closes := unnested front line back split.symm
    have opens : line.Closes → line.Opens := Line.Closes.opens
    rw [paired_append, unfenced_append, before]
    tauto

theorem unnested_iff : Unnested lines ↔ ∀ front, front <+: lines → (Paired front ↔ Unfenced front) := by
  refine ⟨fun unnested front => unnested.paired_iff, fun agree front line back split enclosed opens => ?_⟩
  have before := agree front ⟨line :: back, split.symm⟩
  have behind := agree (front ++ [line]) ⟨back, by rw [split, List.append_assoc]; rfl⟩
  rw [paired_append, unfenced_append, before] at behind
  tauto

/-- The first title depends only on the fronts of the lines that leave no fence open. -/
theorem FirstTitle.congr {other : List Line → Prop} (agree : ∀ front, front <+: lines → (outside front ↔ other front))
    (first : FirstTitle outside lines title) : FirstTitle other lines title := by
  obtain ⟨front, line, back, rfl, stands, titles, untitled⟩ := first
  refine ⟨front, line, back, rfl, (agree front ⟨line :: back, rfl⟩).mp stands, titles, ?_⟩
  intro earlier next later inside reached
  have isFront : earlier <+: front ++ line :: back := ⟨next :: later ++ line :: back, by simp [inside]⟩
  exact untitled earlier next later inside ((agree earlier isFront).mpr reached)

/-- The title of a document, after which a script is named, is the first heading of the first level behind an even
number of lines that start with backticks. Behind the same lines the scan for blocks is outside of fences just when no
fence encloses such a line without being closed by it; then the title is the first heading that is neither a line of a
request block nor prose. -/
theorem title_scanned (document : String) :
    (∀ title, title? document = some title ↔ FirstTitle Paired (linesOf document) title) ∧
    (Unnested (linesOf document) ↔ ∀ front, front <+: linesOf document → (Paired front ↔ Unfenced front)) ∧
    (Unnested (linesOf document) →
      ∀ title, title? document = some title ↔ FirstTitle Unfenced (linesOf document) title) ∧
    ∀ hint scenario, parse document hint = .ok scenario →
      scenario.name = (title? document).getD (hint.getD "scenario") ∧ scenario.id = Slug.ofName scenario.name := by
  refine ⟨fun title => title?_eq_some_iff, unnested_iff, fun unnested title => ?_, fun hint scenario parsed => ?_⟩
  · rw [title?_eq_some_iff]
    exact ⟨.congr fun _ => unnested.paired_iff, .congr fun _ isFront => (unnested.paired_iff isFront).symm⟩
  · obtain ⟨found, declared, -, -, -, -, rfl⟩ := parse_eq_ok_iff.mp parsed
    exact ⟨rfl, rfl⟩

/-- A script without a title whose only request has a comment and a body in a fence of its own. -/
def draft : String := "```kest\n# send\nPOST /notes\n\n```json\n# Draft\n```\n"

/-- A script with a title and a comment in its request. -/
def titled : String := "# Shop\n```kest\n# send\nGET /\n```\n"

/-- No comment counts, but the heading in the inner fence does. -/
theorem draft_titled :
    FirstTitle Paired (linesOf draft) "Draft" ∧ ¬Unnested (linesOf draft) ∧
      FirstTitle Unfenced (linesOf titled) "Shop" := by
  obtain ⟨first, -⟩ := title_scanned draft
  obtain ⟨-, flat, scanned, -⟩ := title_scanned titled
  have nested : linesOf draft = [⟨1, "```kest"⟩, ⟨2, "# send"⟩, ⟨3, "POST /notes"⟩, ⟨4, ""⟩] ++
      ⟨5, "```json"⟩ :: [⟨6, "# Draft"⟩, ⟨7, "```"⟩] := by rfl
  have agree : ∀ front ∈ (linesOf titled).inits, (Paired front ↔ Unfenced front) := by decide +kernel
  refine ⟨(first _).mp rfl, fun unnested => ?_, (scanned (flat.mpr fun front isFront => ?_) _).mp rfl⟩
  · exact absurd (unnested _ _ _ nested (by decide) (by decide)) (by decide)
  · exact agree front ((List.mem_inits _ _).mpr isFront)

end Runbook.Script

import Mathlib.Data.List.TakeWhile
import Runbook.Proofs.Text.Blank
import Runbook.Text.Pieces

/-!
Texts and their parts. A list with a run at its front, such as the digits at the front of a text, is cut where its run
stops.
-/

namespace Runbook.Text

variable {α : Type} {p : α → Bool} {run rest : List α}

/-- A run is taken whole where the rest does not go on with it. -/
theorem takeWhile_run (goesOn : ∀ c ∈ run, p c = true) (stops : ∀ c ∈ rest.head?, p c = false) :
    (run ++ rest).takeWhile p = run := by
  rw [List.takeWhile_append_of_pos goesOn]
  cases rest with
  | nil => simp
  | cons first rest => simp [stops first rfl]

/-- What stands behind a run is left. -/
theorem dropWhile_run (goesOn : ∀ c ∈ run, p c = true) (stops : ∀ c ∈ rest.head?, p c = false) :
    (run ++ rest).dropWhile p = rest := by
  rw [List.dropWhile_append_of_pos goesOn]
  cases rest with
  | nil => rfl
  | cons first rest => simp [stops first rfl]

/-- A list is a run and a rest that does not go on with it. -/
theorem exists_run (p : α → Bool) (text : List α) : ∃ run, (∀ c ∈ run, p c = true) ∧
    (∀ c ∈ (text.dropWhile p).head?, p c = false) ∧ text = run ++ text.dropWhile p := by
  refine ⟨text.takeWhile p, fun _ => List.mem_takeWhile_imp, fun c first => ?_, ?_⟩
  · have stops := List.head?_dropWhile_not p text
    rw [first] at stops
    exact stops
  · exact List.takeWhile_append_dropWhile.symm

end Runbook.Text

/-!
Texts made of pieces: cut at the separators between its pieces or into its lines, such a text gives back the pieces that
it was made of.
-/

namespace Runbook.Text

variable {p : Char → Bool} {separator : Char}

theorem splitBy_eq_splitOnP (p : Char → Bool) (text : List Char) : splitBy p text = text.splitOnP p := by
  induction text with
  | nil => rfl
  | cons c rest ih =>
    rw [List.splitOnP_cons_eq_if_modifyHead, splitBy, ih]
    split
    · rfl
    · cases whole : rest.splitOnP p with
      | nil => exact absurd whole (List.splitOnP_ne_nil p rest)
      | cons piece more => rfl

theorem splitAt_eq_splitOn (separator : Char) (text : List Char) : splitAt separator text = text.splitOn separator := by
  rw [splitAt, splitBy_eq_splitOnP, List.splitOn_eq_splitOnP]

/-- No piece holds a separator. -/
theorem not_mem_of_mem_splitAt {text piece : List Char} (member : piece ∈ splitAt separator text) :
    separator ∉ piece := by
  induction text generalizing piece with
  | nil =>
    obtain rfl := List.mem_singleton.mp member
    exact List.not_mem_nil
  | cons c rest ih =>
    rw [splitAt, splitBy] at member
    split at member
    · rcases List.mem_cons.mp member with rfl | later
      · exact List.not_mem_nil
      · exact ih later
    · next other =>
      have different : separator ≠ c := fun same => other (by simp [same])
      split at member
      · obtain rfl := List.mem_singleton.mp member
        simpa using different
      · next next more split =>
        rw [splitAt, split] at ih
        rcases List.mem_cons.mp member with rfl | later
        · simpa [different] using ih List.mem_cons_self
        · exact ih (List.mem_cons_of_mem _ later)

/-- What stands in a piece stands in the text. -/
theorem mem_of_mem_splitAt {text piece : List Char} (member : piece ∈ splitAt separator text) : piece ⊆ text := by
  induction text generalizing piece with
  | nil =>
    obtain rfl := List.mem_singleton.mp member
    exact List.nil_subset _
  | cons c rest ih =>
    rw [splitAt, splitBy] at member
    split at member
    · rcases List.mem_cons.mp member with rfl | later
      · exact List.nil_subset _
      · exact List.subset_cons_of_subset c (ih later)
    · split at member
      · obtain rfl := List.mem_singleton.mp member
        exact List.cons_subset_cons c (List.nil_subset rest)
      · next next more split =>
        rw [splitAt, split] at ih
        rcases List.mem_cons.mp member with rfl | later
        · exact List.cons_subset_cons c (ih List.mem_cons_self)
        · exact List.subset_cons_of_subset c (ih (List.mem_cons_of_mem _ later))

/-- A text without separators is one piece. -/
theorem splitAt_of_notMem {piece : List Char} (apart : separator ∉ piece) : splitAt separator piece = [piece] := by
  induction piece with
  | nil => rfl
  | cons c rest ih =>
    obtain ⟨other, later⟩ : separator ≠ c ∧ separator ∉ rest := by simpa using apart
    have rest := ih later
    rw [splitAt] at rest ⊢
    rw [splitBy, rest, if_neg (by simpa using other.symm)]

theorem afterFront?_eq_some_iff {front text rest : List Char} : afterFront? front text = some rest ↔ text = front ++ rest := by
  induction front generalizing text with
  | nil => simp [afterFront?]
  | cons p front ih =>
    cases text with
    | nil => simp [afterFront?]
    | cons c text =>
      unfold afterFront?
      rw [List.cons_append, List.cons.injEq]
      by_cases same : p = c
      · rw [if_pos (by simpa using same), ih]
        exact ⟨fun rest => ⟨same.symm, rest⟩, And.right⟩
      · rw [if_neg (by simpa using same)]
        exact iff_of_false (by simp) fun whole => same whole.1.symm

theorem isSome_afterFront?_iff {front text : List Char} : (afterFront? front text).isSome = true ↔ front <+: text := by
  rw [Option.isSome_iff_exists]
  exact exists_congr fun rest => afterFront?_eq_some_iff.trans eq_comm

theorem isSome_beforeBack?_iff {back text : List Char} : (beforeBack? back text).isSome = true ↔ back <:+ text := by
  rw [beforeBack?, Option.isSome_map, isSome_afterFront?_iff, List.reverse_prefix]

/-- A text is cut at the first separator. -/
theorem cut?_append {name : List Char} (apart : separator ∉ name) (rest : List Char) :
    cut? separator (name ++ separator :: rest) = some (name, rest) := by
  induction name with
  | nil => simp [cut?, cutBy?]
  | cons c name ih =>
    have different : separator ≠ c := fun same => apart (same ▸ List.mem_cons_self)
    have later := ih fun member => apart (List.mem_cons_of_mem _ member)
    rw [cut?] at later ⊢
    simp [cutBy?, different.symm, later]

/-- A text that is cut is what stands before the first separator, the separator, and the rest. -/
theorem eq_append_of_cut? {text name rest : List Char} (cut : cut? separator text = some (name, rest)) :
    text = name ++ separator :: rest ∧ separator ∉ name := by
  induction text generalizing name with
  | nil => cases cut
  | cons c text ih =>
    rw [cut?, cutBy?] at cut
    split at cut
    next same =>
      cases cut
      exact ⟨by rw [eq_of_beq same]; rfl, List.not_mem_nil⟩
    next other =>
      obtain ⟨⟨front, back⟩, later, whole⟩ := Option.map_eq_some_iff.mp cut
      cases whole
      obtain ⟨rfl, apart⟩ := ih later
      have different : separator ≠ c := fun same => other (by simp [same])
      exact ⟨rfl, fun member => (List.mem_cons.mp member).elim different apart⟩

theorem splitAt_ne_nil (separator : Char) (text : List Char) : splitAt separator text ≠ [] := by
  rw [splitAt_eq_splitOn]
  exact List.splitOn_ne_nil separator text

/-- A separator ends a piece, whatever stands around it. -/
theorem splitAt_append (front rest : List Char) :
    splitAt separator (front ++ separator :: rest) = splitAt separator front ++ splitAt separator rest := by
  simp only [splitAt, splitBy_eq_splitOnP]
  exact List.splitOnP_append_cons front rest (beq_self_eq_true separator)

/-- A text of lines that are each ended by a line feed has one more piece, an empty one. -/
theorem splitAt_flatMap {texts : List (List Char)} (plain : ∀ text ∈ texts, '\n' ∉ text) :
    splitAt '\n' (texts.flatMap (· ++ ['\n'])) = texts ++ [[]] := by
  induction texts with
  | nil => rfl
  | cons text rest ih =>
    have later := ih fun other member => plain other (List.mem_cons_of_mem _ member)
    rw [List.flatMap_cons, List.append_assoc, List.singleton_append, splitAt_append,
      splitAt_of_notMem (plain text List.mem_cons_self), later]
    rfl

theorem dropReturn_eq_self {line : List Char} (unreturned : line.getLast? ≠ some '\r') : dropReturn line = line := by
  unfold dropReturn
  split
  · next returned => exact absurd returned unreturned
  · rfl

/-- Every piece before the last one is a line that a line feed ended. -/
theorem lines_go_append (pieces : List (List Char)) {more : List (List Char)} (filled : more ≠ []) :
    lines.go (pieces ++ more) = pieces.map dropReturn ++ lines.go more := by
  induction pieces with
  | nil => rfl
  | cons piece rest ih =>
    obtain ⟨next, later, whole⟩ : ∃ next later, rest ++ more = next :: later :=
      List.exists_cons_of_ne_nil (by simp [filled])
    rw [List.map_cons, List.cons_append, List.cons_append, ← ih, whole]
    rfl

/-- A line feed ends a line, and the lines behind it are those of the rest alone. -/
theorem lines_feed (front rest : List Char) :
    lines (front ++ '\n' :: rest) = (splitAt '\n' front).map dropReturn ++ lines rest := by
  rw [lines, splitAt_append, lines_go_append _ (splitAt_ne_nil '\n' rest), lines]

/-- A text that a line feed ends has its lines before those of what follows. -/
theorem lines_append {text : List Char} (ended : text = [] ∨ ∃ front, text = front ++ ['\n']) (rest : List Char) :
    lines (text ++ rest) = lines text ++ lines rest := by
  rcases ended with rfl | ⟨front, rfl⟩
  · rfl
  · have alone : lines (front ++ ['\n']) = (splitAt '\n' front).map dropReturn := by
      rw [lines_feed]
      exact List.append_nil _
    rw [List.append_assoc, List.singleton_append, lines_feed, alone]

/-- Texts without line feeds that do not end with a carriage return are the lines of a text in which each of them is
ended by a line feed. -/
theorem lines_flatMap {texts : List (List Char)} (plain : ∀ text ∈ texts, '\n' ∉ text)
    (unreturned : ∀ text ∈ texts, text.getLast? ≠ some '\r') : lines (texts.flatMap (· ++ ['\n'])) = texts := by
  have whole : texts.map dropReturn = texts :=
    (List.map_congr_left fun text member => dropReturn_eq_self (unreturned text member)).trans (List.map_id texts)
  rw [lines, splitAt_flatMap plain, lines_go_append texts (List.cons_ne_nil [] []), whole]
  exact List.append_nil texts

/-- Two words with a blank between them. -/
theorem words_append {first second : List Char} (isFirst : IsSolid first) (isSecond : IsSolid second) {c : Char}
    (blank : isBlank c = true) : words (first ++ c :: second) = [first, second] := by
  have pieces (text : List Char) : words.go text = text.splitOnP isBlank := by
    rw [← splitBy_eq_splitOnP]
    induction text with
    | nil => rfl
    | cons c rest ih => cases later : splitBy isBlank rest <;> simp [words.go, splitBy, ih, later]
  rw [words, pieces, List.splitOnP_append_cons_of_forall_mem isFirst.isBlank_eq_false _ blank,
    List.splitOnP_eq_singleton isSecond.isBlank_eq_false]
  simp [isFirst.ne_nil, isSecond.ne_nil]

/-- Pieces behind other ones, with a separator between the two. -/
theorem intercalate_append {separator : List Char} {pieces more : List (List Char)} (some : pieces ≠ [])
    (filled : more ≠ []) :
    separator.intercalate (pieces ++ more) =
      separator.intercalate pieces ++ separator ++ separator.intercalate more := by
  induction pieces with
  | nil => exact absurd rfl some
  | cons piece rest ih =>
    rw [List.cons_append, List.intercalate_cons_of_ne_nil (List.append_ne_nil_of_right_ne_nil rest filled)]
    cases rest with
    | nil => simp
    | cons next rest =>
      have later : next :: rest ≠ [] := List.cons_ne_nil _ _
      rw [ih later, List.intercalate_cons_of_ne_nil later]
      simp only [List.append_assoc]

/-- Pieces with a separator before each of them, less the first separator. -/
theorem tail_flatMap_cons (separator : Char) (pieces : List (List Char)) :
    (pieces.flatMap (separator :: ·)).tail = [separator].intercalate pieces := by
  induction pieces with
  | nil => rfl
  | cons piece rest ih =>
    cases rest with
    | nil => simp
    | cons next later =>
      rw [List.intercalate_cons_cons, ← ih]
      simp

/-- The pieces of a text and an empty one behind them are the text with a separator at its end. -/
theorem intercalate_splitAt (separator : Char) (text : List Char) :
    [separator].intercalate (splitAt separator text ++ [[]]) = text ++ [separator] := by
  rw [splitAt_eq_splitOn, intercalate_append (List.splitOn_ne_nil separator text) (List.cons_ne_nil _ _),
    List.intercalate_splitOn]
  exact List.append_nil _

end Runbook.Text

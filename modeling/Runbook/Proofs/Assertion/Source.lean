import Runbook.Assertion.Reader
import Runbook.Proofs.Text.Lines

/-!
The source of an assertion: blanks around a line do not matter to the assertion that it writes, so the line that an
assertion keeps writes that same assertion again.
-/

namespace Runbook

open Runbook.Text

namespace Text

variable {front text back : List Char}

/-- A run of characters does not go on into a text that holds no such character. -/
theorem takeWhile_append_stop {p : Char → Bool} (text : List Char) (stops : ∀ c ∈ back, p c = false) :
    (text ++ back).takeWhile p = text.takeWhile p ∧ (text ++ back).dropWhile p = text.dropWhile p ++ back := by
  induction text with
  | nil => cases back <;> simp_all
  | cons c text ih => cases holds : p c <;> simp [holds, ih]

/-- Blanks behind a text do not matter to whether it begins with a text without blanks. -/
theorem afterFront?_append (solid : ∀ c ∈ front, isBlank c = false) (blank : ∀ c ∈ back, isBlank c = true) :
    afterFront? front (text ++ back) = (afterFront? front text).map (· ++ back) := by
  induction front generalizing text with
  | nil => rfl
  | cons p front ih =>
    cases text with
    | nil =>
      cases back with
      | nil => rfl
      | cons c back =>
        have apart : p ≠ c := by
          rintro rfl
          have dense := solid p List.mem_cons_self
          rw [blank p List.mem_cons_self] at dense
          cases dense
        simp [afterFront?, apart]
    | cons c text =>
      rw [List.cons_append, afterFront?, afterFront?, ih fun d member => solid d (List.mem_cons_of_mem _ member)]
      split <;> rfl

end Text

namespace Assertion

variable {text back : List Char}

theorem takeOperator_append (blank : ∀ c ∈ back, isBlank c = true) :
    takeOperator (text ++ back) = (takeOperator text).map fun found => (found.1, found.2 ++ back) := by
  have solid (operator : Operator) : IsSolid operator.text.toList := by
    cases operator <;> decide
  unfold takeOperator
  rw [List.map_findSome?]
  congr 1
  funext operator
  rw [afterFront?_append (solid operator).isBlank_eq_false blank, Function.comp_apply, Option.map_map, Option.map_map]
  rfl

/-- Blanks behind a comparison do not matter. -/
theorem takeComparison_append (blank : ∀ c ∈ back, isBlank c = true) :
    takeComparison (text ++ back) = takeComparison text := by
  unfold takeComparison
  rw [List.dropWhile_append]
  by_cases none : (text.dropWhile isBlank).isEmpty = true
  · rw [if_pos none, List.isEmpty_iff.mp none, List.dropWhile_eq_nil_iff.mpr blank]
  · rw [if_neg none, takeOperator_append blank]
    cases takeOperator (text.dropWhile isBlank) with
    | none => rfl
    | some found =>
      have nothing : ∀ c ∈ ([] : List Char), isBlank c = true := by simp
      have side : trim (found.2 ++ back) = trim found.2 := trim_pad nothing blank
      simp only [Option.map_some, side]

theorem takeLongest_append (blank : ∀ c ∈ back, isBlank c = true) (least : Nat) (run rest : List Char) :
    takeLongest least run (rest ++ back) = takeLongest least run rest := by
  unfold takeLongest
  congr 1
  funext dropped
  simp only [← List.append_assoc, takeComparison_append blank]

/-- A left-hand side that is a word. -/
def takeWord (text : List Char) (name : String) : Option (List Char × Operator × List Char) := do
  let rest ← afterFront? name.toList text
  let found ← takeComparison rest
  return (name.toList, found)

/-- A left-hand side that is a word with a tail. -/
def takeTail (text : List Char) (name : String) (least : Nat) : Option (List Char × Operator × List Char) := do
  let rest ← afterFront? name.toList text
  let (side, found) ← takeLongest least (rest.takeWhile isSubjectChar) (rest.dropWhile isSubjectChar)
  return (name.toList ++ side, found)

/-- The parts of a text that starts with its left-hand side. -/
def takeSides (text : List Char) : Option (List Char × Operator × List Char) :=
  (takeWord text "status").orElse fun _ => (takeWord text "duration").orElse fun _ =>
    (takeTail text "body." 0).orElse fun _ => (takeTail text "body[" 0).orElse fun _ =>
      (takeWord text "body").orElse fun _ => takeTail text "header." 1

theorem takeParts_eq (line : List Char) : takeParts line = takeSides (line.dropWhile isBlank) := rfl

theorem takeWord_append (blank : ∀ c ∈ back, isBlank c = true) {name : String}
    (solid : IsSolid name.toList) : takeWord (text ++ back) name = takeWord text name := by
  unfold takeWord
  rw [afterFront?_append solid.isBlank_eq_false blank]
  cases afterFront? name.toList text with
  | none => rfl
  | some rest => simp [takeComparison_append blank]

theorem takeTail_append (blank : ∀ c ∈ back, isBlank c = true) {name : String}
    (solid : IsSolid name.toList) (least : Nat) :
    takeTail (text ++ back) name least = takeTail text name least := by
  unfold takeTail
  rw [afterFront?_append solid.isBlank_eq_false blank]
  cases afterFront? name.toList text with
  | none => rfl
  | some rest =>
    have stops : ∀ c ∈ back, isSubjectChar c = false := fun c member => by simp [isSubjectChar, blank c member]
    obtain ⟨run, behind⟩ := takeWhile_append_stop rest stops
    simp [run, behind, takeLongest_append blank]

theorem takeSides_append (blank : ∀ c ∈ back, isBlank c = true) : takeSides (text ++ back) = takeSides text := by
  unfold takeSides
  rw [takeWord_append blank (by decide), takeWord_append blank (by decide), takeTail_append blank (by decide),
    takeTail_append blank (by decide), takeWord_append blank (by decide), takeTail_append blank (by decide)]

/-- Blanks around a line do not matter to its parts. -/
theorem takeParts_trim (line : List Char) : takeParts (trim line) = takeParts line := by
  obtain ⟨front, back, before, after, whole⟩ := exists_pad line
  have inner : (trim line).dropWhile isBlank = trim line :=
    dropWhile_isBlank_eq_self_iff.mpr (isTrimmed_iff.mp (isTrimmed_trim line)).1
  rw [takeParts_eq, takeParts_eq, inner]
  by_cases none : trim line = []
  · have blank := List.dropWhile_eq_nil_iff.mpr (trim_eq_nil_iff.mp none)
    rw [none, blank]
  · have outer : line.dropWhile isBlank = trim line ++ back :=
      calc line.dropWhile isBlank = (front ++ trim line ++ back).dropWhile isBlank := congrArg _ whole
        _ = (trim line ++ back).dropWhile isBlank := by rw [List.append_assoc, List.dropWhile_append_of_pos before]
        _ = trim line ++ back := by rw [List.dropWhile_append, inner, if_neg (by simpa using none)]
    rw [outer, takeSides_append after]

/-- A line with or without blanks around it is the same assertion. -/
theorem parse_trimmed (line : String) : parse (trimmed line) = parse line := by
  have again : trimmed (trimmed line) = trimmed line := by
    rw [trimmed, toList_trimmed, isTrimmed_trim]
    rfl
  unfold parse
  rw [again, toList_trimmed, takeParts_trim]

/-- An assertion keeps the line that it was read from, which has the parts of one. -/
theorem source_of_parse {line : String} {assertion : Assertion} (read : parse line = .ok assertion) :
    assertion.source = trimmed line ∧ (takeParts line.toList).isSome := by
  unfold parse at read
  dsimp only at read
  split at read
  · cases read
  · next left operator right parts =>
    refine ⟨?_, by rw [parts]; rfl⟩
    cases named : readSubject left with
    | error fault => simp [named, bind, Except.bind] at read
    | ok subject =>
      simp only [named, bind, Except.bind] at read
      split at read
      · split at read
        · cases read
          rfl
        · cases read
      · split at read
        · cases read
        · cases literal : readLiteral subject right with
          | error fault => simp [literal] at read
          | ok literal =>
            simp only [literal] at read
            cases read
            rfl

theorem isTrimmed_source {line : String} {assertion : Assertion} (read : parse line = .ok assertion) :
    IsTrimmed assertion.source.toList := by
  rw [(source_of_parse read).1, toList_trimmed]
  exact isTrimmed_trim _

/-- The letters that a left-hand side starts with. -/
def initials : List Char := ['s', 'd', 'b', 'h']

theorem eq_of_mem_initials {c : Char} (member : c ∈ initials) : c = 's' ∨ c = 'd' ∨ c = 'b' ∨ c = 'h' := by
  simpa [initials] using member

theorem head?_of_afterFront? {name rest : List Char} {c : Char} (starts : name.head? = some c)
    (found : afterFront? name text = some rest) : text.head? = some c := by
  rw [afterFront?_eq_some_iff.mp found, List.head?_append, starts]
  rfl

theorem head?_of_takeWord {name : String} {c : Char} (starts : name.toList.head? = some c)
    (found : (takeWord text name).isSome) : text.head? = some c := by
  unfold takeWord at found
  cases begins : afterFront? name.toList text with
  | none => simp [begins] at found
  | some rest => exact head?_of_afterFront? starts begins

theorem head?_of_takeTail {name : String} {least : Nat} {c : Char} (starts : name.toList.head? = some c)
    (found : (takeTail text name least).isSome) : text.head? = some c := by
  unfold takeTail at found
  cases begins : afterFront? name.toList text with
  | none => simp [begins] at found
  | some rest => exact head?_of_afterFront? starts begins

theorem head?_of_takeSides (found : (takeSides text).isSome) : ∃ c ∈ initials, text.head? = some c := by
  simp only [takeSides, Option.orElse_eq_or, Option.isSome_or, Bool.or_eq_true] at found
  rcases found with word | word | tail | tail | word | tail
  · exact ⟨'s', by decide, head?_of_takeWord (by decide) word⟩
  · exact ⟨'d', by decide, head?_of_takeWord (by decide) word⟩
  · exact ⟨'b', by decide, head?_of_takeTail (by decide) tail⟩
  · exact ⟨'b', by decide, head?_of_takeTail (by decide) tail⟩
  · exact ⟨'b', by decide, head?_of_takeWord (by decide) word⟩
  · exact ⟨'h', by decide, head?_of_takeTail (by decide) tail⟩

/-- The line of an assertion starts with one of a few letters. -/
theorem head?_of_parse {line : String} {assertion : Assertion} (read : parse line = .ok assertion) :
    ∃ c ∈ initials, assertion.source.toList.head? = some c := by
  obtain ⟨source, parts⟩ := source_of_parse read
  have inner : (trim line.toList).dropWhile isBlank = trim line.toList :=
    dropWhile_isBlank_eq_self_iff.mpr (isTrimmed_iff.mp (isTrimmed_trim _)).1
  rw [← takeParts_trim, takeParts_eq, inner] at parts
  rw [source, toList_trimmed]
  exact head?_of_takeSides parts

/-- The line that an assertion keeps writes that assertion. -/
theorem parse_source {line : String} {assertion : Assertion} (read : parse line = .ok assertion) :
    parse assertion.source = .ok assertion := by
  rw [(source_of_parse read).1, parse_trimmed, read]

end Assertion
end Runbook

import Runbook.Proofs.Assertion.Source
import Runbook.Proofs.Text.Decimal
import Runbook.Proofs.Text.Lines
import Runbook.Script.Block

/-!
Step headings as they are written: two number signs, the word, the digits of the number and the title, with blanks
between them. The reader of headings accepts these lines and no others.
-/

namespace Runbook.Script

open Runbook.Text

/-- The title of a step behind the digits of its number: one colon, dot or hyphen may stand in front of it, and blanks
around it do not belong to it. -/
inductive IsTitled : List Char → List Char → Prop
  | marked {gap title : List Char} {mark : Char} (blank : ∀ c ∈ gap, isBlank c = true)
      (isMark : mark ∈ [':', '.', '-']) (plain : '\n' ∉ title) : IsTitled (gap ++ mark :: title) (trim title)
  | bare {gap title : List Char} (blank : ∀ c ∈ gap, isBlank c = true) (solid : ∀ c ∈ title.head?, isBlank c = false)
      (unmarked : ∀ c ∈ title.head?, c ∉ [':', '.', '-']) (plain : '\n' ∉ title) :
      IsTitled (gap ++ title) (trim title)

/-- A trimmed line is the heading of a step, with these digits and this title. -/
inductive IsHeading : List Char → List Char → List Char → Prop
  | written {gap word space digits rest title : List Char} (apart : gap ≠ []) (blank : ∀ c ∈ gap, isBlank c = true)
      (isStep : isWord "step".toList word = true) (spaced : space ≠ []) (empty : ∀ c ∈ space, isBlank c = true)
      (counts : digits ≠ []) (allDigits : ∀ c ∈ digits, isAnyDigit c = true)
      (ends : ∀ c ∈ rest.head?, isAnyDigit c = false) (titled : IsTitled rest title) :
      IsHeading ('#' :: '#' :: (gap ++ (word ++ (space ++ (digits ++ rest))))) digits title

variable {line digits text : List Char}

theorem isBlank_eq_false_of_isAnyDigit {c : Char} (digit : isAnyDigit c = true) : isBlank c = false := by
  obtain ⟨range, member, bounds⟩ := List.any_eq_true.mp digit
  -- No range of digits reaches a blank.
  have apart : ∀ range ∈ digitRanges, (32 < range.1 ∧ range.2 < 0x85) ∨ (0xa0 < range.1 ∧ range.2 < 0x1680) ∨
      (0x1680 < range.1 ∧ range.2 < 0x2000) ∨ 0x3000 < range.1 := by decide
  have aside := apart range member
  simp only [Bool.and_eq_true, decide_eq_true_eq] at bounds
  simp only [isBlank, Bool.or_eq_false_iff, Bool.and_eq_false_iff, decide_eq_false_iff_not, beq_eq_false_iff_ne]
  omega

/-- A blank is no letter of a word in any case. -/
theorem ne_of_isBlank {c letter : Char} (blank : isBlank c = true) (dense : isBlank letter = false) :
    (if c == '\u017f' then 's' else lowerChar c) ≠ letter := by
  have own : lowerChar c = c := by
    refine if_neg fun upper => ?_
    have range := isUpper_iff.mp upper
    simp only [isBlank, Bool.or_eq_true, Bool.and_eq_true, decide_eq_true_eq, beq_iff_eq] at blank
    omega
  have short : (c == '\u017f') = false := beq_false_of_ne fun same => by
    rw [same] at blank
    exact absurd blank (by decide)
  rw [short, if_neg (by decide), own]
  rintro rfl
  rw [dense] at blank
  cases blank

/-- The word of a heading has four letters, and the first of them is no blank. -/
theorem exists_of_isWord {word : List Char} (isStep : isWord "step".toList word = true) :
    word.length = 4 ∧ ∀ rest, ∀ c ∈ (word ++ rest).head?, isBlank c = false := by
  have letters := eq_of_beq isStep
  have long : word.length = 4 := by
    have lengths := congrArg List.length letters
    rw [List.length_map] at lengths
    exact lengths
  refine ⟨long, fun rest c first => ?_⟩
  obtain ⟨d, more, rfl⟩ := List.exists_cons_of_length_eq_add_one long
  obtain rfl : d = c := by simpa using first
  by_contra blank
  exact ne_of_isBlank (by simpa using blank) (by decide) (List.cons.inj letters).1

/-- A heading is read as the number of its digits and its title. -/
theorem IsHeading.heading? (isHeading : IsHeading line digits text) :
    heading? line = some (headingNumber digits, String.ofList text) := by
  cases isHeading with
  | @written gap word space _ rest _ apart blank isStep spaced empty counts allDigits ends titled =>
    obtain ⟨long, solid⟩ := exists_of_isWord isStep
    have unnumbered : ∀ c ∈ (digits ++ rest).head?, isBlank c = false := fun c first => by
      obtain ⟨d, more, rfl⟩ := List.exists_cons_of_ne_nil counts
      obtain rfl : d = c := by simpa using first
      exact isBlank_eq_false_of_isAnyDigit (allDigits d List.mem_cons_self)
    have front (behind : List Char) : afterFront? ['#', '#'] ('#' :: '#' :: behind) = some behind := rfl
    have taken (behind : List Char) : (word ++ behind).take 4 = word := by rw [← long, List.take_left]
    have dropped (behind : List Char) : (word ++ behind).drop 4 = behind := by rw [← long, List.drop_left]
    have longer {run : List Char} (some : run ≠ []) (behind : List Char) :
        (behind.length == (run ++ behind).length) = false := by simpa using some
    unfold Script.heading?
    simp only [front, Option.bind_eq_bind, Option.bind_some, dropWhile_run blank (solid _), taken, dropped,
      longer apart, isStep, dropWhile_run empty unnumbered, longer spaced, takeWhile_run allDigits ends,
      List.isEmpty_eq_false_iff.mpr counts, List.drop_left, Bool.not_true, Bool.or_false, Bool.false_eq_true, if_false]
    cases titled with
    | @marked gap title mark blank isMark plain =>
      simp only [List.mem_cons, List.not_mem_nil, or_false] at isMark
      have dense : isBlank mark = false := by obtain rfl | rfl | rfl := isMark <;> rfl
      rw [dropWhile_run blank (by simpa using dense)]
      obtain rfl | rfl | rfl := isMark <;> exact if_neg (by simpa using plain)
    | @bare gap title blank solid unmarked plain =>
      rw [dropWhile_run blank solid]
      have single : title.contains '\n' = false := by simpa using plain
      split
      · exact absurd (by simp) (unmarked _ rfl)
      · exact absurd (by simp) (unmarked _ rfl)
      · exact absurd (by simp) (unmarked _ rfl)
      · exact if_neg (by simpa using plain)

/-- What stands behind one mark and blanks, or behind blanks alone where there is no mark, is a title. -/
theorem isTitled_of_dropWhile {rest raw : List Char}
    (behind : (∃ mark ∈ [':', '.', '-'], rest.dropWhile isBlank = mark :: raw) ∨
      rest.dropWhile isBlank = raw ∧ ∀ mark ∈ [':', '.', '-'], ∀ more, raw ≠ mark :: more)
    (plain : '\n' ∉ raw) : IsTitled rest (trim raw) := by
  obtain ⟨pad, blank, solid, whole⟩ := exists_run isBlank rest
  rw [whole]
  rcases behind with ⟨mark, isMark, after⟩ | ⟨after, unmarked⟩
  · rw [after]
    exact .marked blank isMark plain
  · rw [after] at solid ⊢
    refine .bare blank solid (fun c first isMark => ?_) plain
    obtain ⟨more, same⟩ := List.head?_eq_some_iff.mp first
    exact unmarked c isMark more same

/-- A line that is read as a heading is one. -/
theorem exists_of_heading? {number : Nat} {title : String} (read : heading? line = some (number, title)) :
    ∃ digits text, IsHeading line digits text ∧ number = headingNumber digits ∧ title = String.ofList text := by
  unfold heading? at read
  simp only [Option.bind_eq_bind, Option.bind_eq_some_iff, afterFront?_eq_some_iff, Option.bind_none] at read
  obtain ⟨behind, rfl, read⟩ := read
  obtain ⟨gap, blank, -, gapWord⟩ := exists_run isBlank behind
  generalize behind.dropWhile isBlank = word at read gapWord
  obtain ⟨space, empty, -, spaceNumber⟩ := exists_run isBlank (word.drop 4)
  generalize (word.drop 4).dropWhile isBlank = numeral at read spaceNumber
  obtain ⟨digits, allDigits, ends, whole⟩ := exists_run isAnyDigit numeral
  have taken : numeral.takeWhile isAnyDigit = digits := by
    rw [whole]
    exact takeWhile_run allDigits ends
  have left : numeral.drop digits.length = numeral.dropWhile isAnyDigit := by
    nth_rewrite 1 [whole]
    exact List.drop_left
  rw [taken, left] at read
  generalize numeral.dropWhile isAnyDigit = rest at read ends whole
  split at read
  · cases read
  next worded =>
  split at read
  · cases read
  next counted =>
  simp only [Bool.or_eq_true, not_or, beq_iff_eq, Bool.not_eq_true', Bool.not_eq_false] at worded counted
  have parts : behind = gap ++ (word.take 4 ++ (space ++ (digits ++ rest))) := by
    rw [← whole, ← spaceNumber, List.take_append_drop, ← gapWord]
  have apart : gap ≠ [] := by
    rintro rfl
    exact worded.1 (by rw [gapWord, List.nil_append])
  have spaced : space ≠ [] := by
    rintro rfl
    exact counted.1 (by rw [spaceNumber, List.nil_append])
  have titled {raw : List Char} (isTitled : '\n' ∉ raw → IsTitled rest (trim raw))
      (read : (if raw.contains '\n' = true then none else some (headingNumber digits, String.ofList (trim raw))) =
        some (number, title)) : ∃ digits text, IsHeading ('#' :: '#' :: behind) digits text ∧
          number = headingNumber digits ∧ title = String.ofList text := by
    split at read
    · cases read
    next plain =>
    cases read
    rw [parts]
    exact ⟨digits, trim raw, .written apart blank worded.2 spaced empty (by simpa using counted.2) allDigits ends
      (isTitled (by simpa using plain)), rfl, rfl⟩
  split at read
  · next mark => exact titled (isTitled_of_dropWhile (.inl ⟨':', by decide, mark⟩)) read
  · next mark => exact titled (isTitled_of_dropWhile (.inl ⟨'.', by decide, mark⟩)) read
  · next mark => exact titled (isTitled_of_dropWhile (.inl ⟨'-', by decide, mark⟩)) read
  · next colon dot hyphen =>
    refine titled (isTitled_of_dropWhile (.inr ⟨rfl, ?_⟩)) read
    simpa using ⟨colon, dot, hyphen⟩

/-- The lines that are read as headings are the headings. -/
theorem heading?_eq_some_iff {number : Nat} {title : String} : heading? line = some (number, title) ↔
    ∃ digits text, IsHeading line digits text ∧ number = headingNumber digits ∧ title = String.ofList text := by
  refine ⟨exists_of_heading?, ?_⟩
  rintro ⟨digits, text, isHeading, rfl, rfl⟩
  exact isHeading.heading?

end Runbook.Script

import Runbook.Proofs.Text.Blank
import Runbook.Text.Ascii
import Runbook.Text.Digit

/-!
Numbers as they are written: the decimal digits of a number are read back as that number.
-/

namespace Runbook.Text

variable {n : Nat} {c : Char}

theorem isDigit_iff : isDigit c = true ↔ 48 ≤ c.toNat ∧ c.toNat ≤ 57 := by
  simp only [isDigit, Bool.and_eq_true, decide_eq_true_eq, Char.le_def, UInt32.le_iff_toNat_le]
  rfl

theorem isLetter_iff : isLetter c = true ↔ (97 ≤ c.toNat ∧ c.toNat ≤ 122) ∨ (65 ≤ c.toNat ∧ c.toNat ≤ 90) := by
  simp only [isLetter, isLower, isUpper, Bool.or_eq_true, Bool.and_eq_true, decide_eq_true_iff, Char.le_def,
    UInt32.le_iff_toNat_le]
  rfl

theorem isUpper_iff : isUpper c = true ↔ 65 ≤ c.toNat ∧ c.toNat ≤ 90 := by
  simp only [isUpper, Bool.and_eq_true, decide_eq_true_eq, Char.le_def, UInt32.le_iff_toNat_le]
  rfl

theorem isBlank_eq_false_of_isDigit (digit : isDigit c = true) : isBlank c = false := by
  rw [isDigit_iff] at digit
  simp only [isBlank, Bool.or_eq_false_iff, Bool.and_eq_false_iff, decide_eq_false_iff_not, beq_eq_false_iff_ne]
  omega

theorem lowerChar_of_isDigit (digit : isDigit c = true) : lowerChar c = c := by
  have bounds := isDigit_iff.mp digit
  refine if_neg fun upper => ?_
  have range := isUpper_iff.mp upper
  omega

theorem isAnyDigit_of_isDigit (digit : isDigit c = true) : isAnyDigit c = true := by
  rw [isDigit_iff] at digit
  exact List.any_eq_true.mpr ⟨(0x30, 0x39), List.mem_cons_self, by simpa using digit⟩

theorem isDigit_of_mem_toString (member : c ∈ (toString n).toList) : isDigit c = true := by
  rw [Nat.toString_eq_repr, Nat.toList_repr] at member
  have digit := Nat.isDigit_of_mem_toDigits (by decide) (by decide) member
  simpa [Char.isDigit, isDigit, Char.le_def] using digit

theorem toList_toString_ne_nil : (toString n).toList ≠ [] := by
  rw [Nat.toString_eq_repr, Nat.toList_repr]
  exact Nat.toDigits_ne_nil

/-- A written number is one word. -/
theorem isSolid_toString (n : Nat) : IsSolid (toString n).toList :=
  ⟨toList_toString_ne_nil, fun _ member => isBlank_eq_false_of_isDigit (isDigit_of_mem_toString member)⟩

/-- A written number starts with a zero only where it is zero. -/
theorem head?_toString_ne (pos : 0 < n) : (toString n).toList.head? ≠ some '0' := by
  rw [Nat.toString_eq_repr, Nat.toList_repr]
  induction n using Nat.strongRecOn with
  | _ n ih =>
    by_cases small : n < 10
    · have digit : ∀ m < 10, 0 < m → [Nat.digitChar m].head? ≠ some '0' := by decide
      rw [Nat.toDigits_of_lt_base small]
      exact digit n small pos
    · rw [Nat.toDigits_of_base_le (by decide) (by omega), List.head?_append_of_ne_nil _ Nat.toDigits_ne_nil]
      exact ih (n / 10) (by omega) (by omega)

/-- An integer is written as its size, with a minus where it is negative. -/
theorem toList_toString_int (value : Int) :
    (toString value).toList = (if value < 0 then ['-'] else []) ++ (toString value.natAbs).toList := by
  cases value with
  | ofNat m => rfl
  | negSucc m =>
    rw [if_pos (Int.negSucc_lt_zero m)]
    simp [toString, Int.repr]

/-- An integer is written in digits, with a minus in front of them where it is negative. -/
theorem isDigit_or_minus {value : Int} (member : c ∈ (toString value).toList) : isDigit c = true ∨ c = '-' := by
  rw [toList_toString_int, List.mem_append] at member
  rcases member with sign | digit
  · split at sign
    · exact .inr (List.mem_singleton.mp sign)
    · cases sign
  · exact .inl (isDigit_of_mem_toString digit)

theorem decimalValue_toString (n : Nat) : decimalValue (toString n).toList = n := by
  have value (digits : List Char) : decimalValue digits = Nat.ofDigitChars 10 digits 0 := by
    simp only [decimalValue, digitValue, Nat.ofDigitChars, Nat.mul_comm]
  rw [value, Nat.toString_eq_repr, Nat.toList_repr, Nat.ofDigitChars_ten_toDigits]

/-- Digits behind other ones shift their number. -/
theorem decimalValue_append (front back : List Char) :
    decimalValue (front ++ back) = decimalValue front * Nat.pow 10 back.length + decimalValue back := by
  have shift (start : Nat) (digits : List Char) : digits.foldl (fun value c => value * 10 + digitValue c) start =
      start * Nat.pow 10 digits.length + decimalValue digits := by
    unfold decimalValue
    induction digits generalizing start with
    | nil => simp
    | cons c rest ih =>
      rw [List.foldl_cons, List.foldl_cons, ih, ih (0 * 10 + digitValue c), List.length_cons, Nat.pow_eq, Nat.pow_eq,
        Nat.pow_succ, Nat.zero_mul, Nat.zero_add, Nat.add_mul, Nat.mul_assoc, Nat.mul_comm 10, Nat.add_assoc]
  rw [decimalValue, List.foldl_append, shift]
  rfl

/-- A number is below the power of ten of its digits. -/
theorem decimalValue_lt {digits : List Char} (all : ∀ c ∈ digits, isDigit c = true) :
    decimalValue digits < Nat.pow 10 digits.length := by
  induction digits using List.reverseRecOn with
  | nil => decide
  | append_singleton front c ih =>
    have digit : decimalValue [c] < 10 := by
      have bounds := isDigit_iff.mp (all c (by simp))
      have code : '0'.toNat = 48 := rfl
      simp only [decimalValue, digitValue, List.foldl_cons, List.foldl_nil, code]
      omega
    have before := ih fun d member => all d (by simp [member])
    have longer : Nat.pow 10 (front ++ [c]).length = Nat.pow 10 front.length * 10 := by
      rw [List.length_append]
      rfl
    rw [decimalValue_append, longer, show Nat.pow 10 [c].length = 10 from rfl]
    omega

theorem decimalValue_zeros (count : Nat) : decimalValue (List.replicate count '0') = 0 := by
  induction count with
  | zero => rfl
  | succ count ih => exact ih

theorem length_toString_le {width : Nat} (pos : 0 < width) (below : n < Nat.pow 10 width) :
    (toString n).toList.length ≤ width := by
  rw [Nat.toString_eq_repr, Nat.toList_repr]
  exact (Nat.length_toDigits_le_iff (by decide) pos).mpr below

theorem length_padded_eq (width n : Nat) : (padded width n).toList.length = max width (toString n).toList.length := by
  simp only [padded, String.toList_append, String.toList_ofList, List.length_append, List.length_replicate,
    String.length_toList]
  omega

/-- A padded number is as wide as asked for, if it fits. -/
theorem length_padded {width : Nat} (pos : 0 < width) (below : n < Nat.pow 10 width) :
    (padded width n).toList.length = width :=
  (length_padded_eq width n).trans (Nat.max_eq_left (length_toString_le pos below))

theorem isDigit_of_mem_padded {width : Nat} (member : c ∈ (padded width n).toList) : isDigit c = true := by
  rw [padded, String.toList_append, String.toList_ofList, List.mem_append] at member
  rcases member with zero | digit
  · rw [List.eq_of_mem_replicate zero]
    decide
  · exact isDigit_of_mem_toString digit

/-- Zeros in front of a number do not change it. -/
theorem decimalValue_padded (width n : Nat) : decimalValue (padded width n).toList = n := by
  have zeros (count : Nat) (digits : List Char) :
      decimalValue (List.replicate count '0' ++ digits) = decimalValue digits := by
    induction count with
    | zero => rfl
    | succ count ih => exact ih
  rw [padded, String.toList_append, String.toList_ofList, zeros, decimalValue_toString]

theorem naturalBelow?_toString {bound : Nat} (below : n < bound) :
    naturalBelow? bound (toString n).toList = some n := by
  have digits : (toString n).toList.all isDigit = true :=
    List.all_eq_true.mpr fun _ member => isDigit_of_mem_toString member
  have read : natural? (toString n).toList = some (decimalValue (toString n).toList) := by
    unfold natural?
    split
    · next rest plus =>
      have digit : isDigit '+' = true := isDigit_of_mem_toString (by rw [plus]; exact List.mem_cons_self)
      exact absurd digit (by decide)
    · refine if_pos ?_
      rw [digits, List.isEmpty_eq_false_iff.mpr toList_toString_ne_nil]
      rfl
  rw [naturalBelow?, read, decimalValue_toString]
  simpa using below

end Runbook.Text

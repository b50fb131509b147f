import Runbook.Double.Decimal
import Runbook.Proofs.Double.Range

/-!
Integers as doubles. An integer keeps as many binary digits as a mantissa has and the rest is rounded away, so integers
of more digits share their double with their neighbours; two integers are the same double exactly where they are rounded
to the same number.
-/

namespace Runbook.Double

open Runbook.Text

variable {negative : Bool} {n k mantissa : Nat} {exponent : Int} {i j : Int}

/-- A natural number rounded to the binary digits of a mantissa; a half goes to the even neighbour. -/
def nearestNat (n : Nat) : Nat :=
  roundHalfEven n (Nat.pow 2 (n.log2 - 52)) * Nat.pow 2 (n.log2 - 52)

/-- An integer rounded to the binary digits of a mantissa. -/
def nearest (i : Int) : Int := if i < 0 then -(nearestNat i.natAbs : Int) else nearestNat i.natAbs

theorem nearestNat_eq_self (small : n ≤ Nat.pow 2 53) : nearestNat n = n := by
  rcases Nat.lt_or_eq_of_le small with less | rfl
  · have log : n.log2 < 53 := by
      by_cases none : n = 0
      · rw [none]
        decide
      · exact (Nat.log2_lt none).mpr less
    have unit : n.log2 - 52 = 0 := by omega
    rw [nearestNat, unit, Nat.pow_eq, Nat.pow_zero, roundHalfEven_one, Nat.mul_one]
  · decide +kernel

/-- Integers of no more digits than a mantissa has are not rounded. -/
theorem nearest_eq_self (small : i.natAbs ≤ Nat.pow 2 53) : nearest i = i := by
  rw [nearest, nearestNat_eq_self small]
  split <;> omega

theorem le_roundHalfEven (num den : Nat) : num / den ≤ roundHalfEven num den := by
  unfold roundHalfEven
  dsimp only
  split
  · exact Nat.le_refl _
  · split <;> omega

theorem onGrid_natCast (num power : Nat) : onGrid num 1 (power : Int) = (num, Nat.pow 2 power) := by
  simp [onGrid]

theorem ratio_natCast (mantissa power : Nat) : ratio mantissa (power : Int) = (mantissa * Nat.pow 2 power, 1) := by
  simp [ratio]

/-- The leading binary digits of a number are a number of so many digits. -/
theorem le_div_log2 (filled : n ≠ 0) (digits : k ≤ n.log2) : Nat.pow 2 k ≤ n / Nat.pow 2 (n.log2 - k) := by
  refine (Nat.le_div_iff_mul_le (Nat.two_pow_pos _)).mpr ?_
  calc Nat.pow 2 k * Nat.pow 2 (n.log2 - k) = Nat.pow 2 (k + (n.log2 - k)) := (Nat.pow_add 2 _ _).symm
    _ = Nat.pow 2 n.log2 := by congr 1; omega
    _ ≤ n := Nat.log2_self_le filled

section

variable (large : Nat.pow 2 53 ≤ n)
include large

theorem ne_zero_of_large : n ≠ 0 := by
  rintro rfl
  exact absurd large (by decide)

theorem log2_of_large : 53 ≤ n.log2 := (Nat.le_log2 (ne_zero_of_large large)).mpr large

/-- What has more digits than a mantissa is not rounded below the least such number. -/
theorem le_nearestNat : Nat.pow 2 53 ≤ nearestNat n := by
  have log := log2_of_large large
  have digits := le_div_log2 (ne_zero_of_large large) (by omega : 52 ≤ n.log2)
  calc Nat.pow 2 53 = Nat.pow 2 52 * Nat.pow 2 1 := by decide
    _ ≤ roundHalfEven n (Nat.pow 2 (n.log2 - 52)) * Nat.pow 2 (n.log2 - 52) :=
      Nat.mul_le_mul (digits.trans (le_roundHalfEven _ _)) (Nat.pow_le_pow_right (by decide) (by omega))

/-- The grid of a whole number with more digits than a mantissa. -/
theorem gridExponent_large : gridExponent n 1 = ((n.log2 - 52 : Nat) : Int) := by
  have log := log2_of_large large
  have guess : max minExponent ((n.log2 : Int) - Nat.log2 1 - precision) = ((n.log2 - 53 : Nat) : Int) := by
    have one : Nat.log2 1 = 0 := by decide
    rw [one]
    unfold minExponent precision
    omega
  have full : ¬n / Nat.pow 2 (n.log2 - 53) < Nat.pow 2 precision :=
    Nat.not_lt.mpr (le_div_log2 (ne_zero_of_large large) log)
  unfold gridExponent
  simp only [guess, onGrid_natCast, full, if_false]
  omega

end

/-- The double of a whole number is the number rounded to the digits of a mantissa. -/
theorem exists_ofRatio_one (negative : Bool) (below : n < Nat.pow 2 64) :
    ∃ mantissa exponent, ofRatio negative n 1 = finite negative mantissa exponent ∧ minExponent ≤ exponent ∧
      (ratio mantissa exponent).1 = nearestNat n * (ratio mantissa exponent).2 := by
  rcases Nat.eq_zero_or_pos n with rfl | pos
  · refine ⟨0, minExponent, rfl, Int.le_refl _, ?_⟩
    have none : nearestNat 0 = 0 := by decide
    rw [ratio_zero, none, Nat.zero_mul]
  rcases Nat.lt_or_ge n (Nat.pow 2 53) with small | large
  · refine ⟨_, _, ofRatio_one pos small, ?_, ?_⟩
    · unfold minExponent
      omega
    · rw [ratio_neg, nearestNat_eq_self (Nat.le_of_lt small)]
  · have log : n.log2 < 64 := (Nat.log2_lt (by omega)).mpr below
    have least : minExponent ≤ ((n.log2 - 52 : Nat) : Int) := by
      unfold minExponent
      omega
    have inRange : ¬maxExponent < ((n.log2 - 52 : Nat) : Int) ∧ ¬maxExponent < ((n.log2 - 52 : Nat) : Int) + 1 := by
      unfold maxExponent
      omega
    by_cases full : roundHalfEven n (Nat.pow 2 (n.log2 - 52)) = Nat.pow 2 precision
    · refine ⟨Nat.pow 2 (precision - 1), ((n.log2 - 52 + 1 : Nat) : Int), ?_, by omega, ?_⟩
      · unfold ofRatio
        rw [if_neg (by omega)]
        simp only [gridExponent_large large, onGrid_natCast, full, if_true, inRange, if_false, Int.natCast_succ]
      · have carried : Nat.pow 2 precision = Nat.pow 2 (precision - 1) * 2 := by decide
        have raised : Nat.pow 2 (n.log2 - 52 + 1) = Nat.pow 2 (n.log2 - 52) * 2 := rfl
        rw [ratio_natCast, Nat.mul_one, nearestNat, full, carried, raised, Nat.mul_assoc, Nat.mul_comm 2]
    · refine ⟨roundHalfEven n (Nat.pow 2 (n.log2 - 52)), ((n.log2 - 52 : Nat) : Int), ?_, least, ?_⟩
      · unfold ofRatio
        rw [if_neg (by omega)]
        simp only [gridExponent_large large, onGrid_natCast, full, inRange, if_false]
      · rw [ratio_natCast, Nat.mul_one, nearestNat]

/-- The number of units of the finest grid in one. -/
def unitsInOne : Nat := Nat.pow 2 (-minExponent).toNat

theorem unitsInOne_pos : 0 < unitsInOne := by
  unfold unitsInOne
  generalize (-minExponent).toNat = power
  exact Nat.two_pow_pos power

/-- A double of a whole number is that many times one. -/
theorem units_of_ratio (least : minExponent ≤ exponent)
    (whole : (ratio mantissa exponent).1 = k * (ratio mantissa exponent).2) :
    units negative mantissa exponent = (if negative then -(k : Int) else k) * unitsInOne := by
  have size : mantissa * Nat.pow 2 (exponent - minExponent).toNat = k * unitsInOne := by
    unfold unitsInOne
    rcases Int.le_total 0 exponent with above | below
    · obtain ⟨power, rfl⟩ := Int.eq_ofNat_of_zero_le above
      have split : ((power : Int) - minExponent).toNat = power + (-minExponent).toNat := by
        unfold minExponent
        omega
      rw [ratio_natCast, Nat.mul_one] at whole
      rw [split, ← whole, Nat.pow_eq, Nat.pow_eq, Nat.pow_eq, Nat.pow_add, Nat.mul_assoc]
    · obtain ⟨power, rfl⟩ : ∃ power : Nat, exponent = -power := ⟨(-exponent).toNat, by omega⟩
      have split : (-minExponent).toNat = power + (-(power : Int) - minExponent).toNat := by
        unfold minExponent at least ⊢
        omega
      rw [ratio_neg] at whole
      dsimp only at whole
      rw [split, whole, Nat.pow_eq, Nat.pow_eq, Nat.pow_eq, Nat.pow_add, Nat.mul_assoc]
  have magnitude : (mantissa : Int) * (Nat.pow 2 (exponent - minExponent).toNat : Nat) = k * unitsInOne := by
    rw [← Int.natCast_mul, size, Int.natCast_mul]
  unfold units
  cases negative with
  | false => exact magnitude
  | true => exact (congrArg Neg.neg magnitude).trans (Int.neg_mul _ _).symm

/-- A double of a whole number is that integer. -/
theorem integer?_of_ratio (whole : (ratio mantissa exponent).1 = k * (ratio mantissa exponent).2) :
    integer? (finite negative mantissa exponent) = some (if negative then -(k : Int) else k) := by
  have none : (ratio mantissa exponent).1 % (ratio mantissa exponent).2 = 0 := by rw [whole, Nat.mul_mod_left]
  have quotient : (ratio mantissa exponent).1 / (ratio mantissa exponent).2 = k := by
    rw [whole, Nat.mul_div_cancel _ (ratio_pos mantissa exponent)]
  unfold integer?
  dsimp only
  rw [if_pos none, ← Int.natCast_ediv, quotient]

/-- The double of an integer is a real number: the integer rounded to the digits of a mantissa. -/
theorem exists_ofInt (below : i.natAbs < Nat.pow 2 64) :
    ∃ negative mantissa exponent, ofInt i = finite negative mantissa exponent ∧
      units negative mantissa exponent = nearest i * unitsInOne ∧
      integer? (finite negative mantissa exponent) = some (nearest i) := by
  obtain ⟨mantissa, exponent, rounded, least, whole⟩ := exists_ofRatio_one (decide (i < 0)) below
  have signed : (if decide (i < 0) then -(nearestNat i.natAbs : Int) else nearestNat i.natAbs) = nearest i := by
    simp [nearest]
  refine ⟨_, mantissa, exponent, rounded, ?_, ?_⟩
  · rw [units_of_ratio least whole, signed]
  · rw [integer?_of_ratio whole, signed]

/-- Two integers are the same double exactly where they are rounded to the same number. -/
theorem same_ofInt_iff (first : i.natAbs < Nat.pow 2 64) (second : j.natAbs < Nat.pow 2 64) :
    (ofInt i).same (ofInt j) = true ↔ nearest i = nearest j := by
  obtain ⟨_, _, _, left, size, -⟩ := exists_ofInt first
  obtain ⟨_, _, _, right, other, -⟩ := exists_ofInt second
  have unit : (unitsInOne : Int) ≠ 0 := Int.natCast_ne_zero.mpr unitsInOne_pos.ne'
  rw [left, right, same, size, other, beq_iff_eq]
  exact Int.mul_eq_mul_right_iff unit

theorem natAbs_nearest (i : Int) : (nearest i).natAbs = nearestNat i.natAbs := by
  unfold nearest
  split <;> omega

/-- An integer that has no more digits than a mantissa shares its double with no other integer. -/
theorem nearest_eq_iff (small : i.natAbs < Nat.pow 2 53 ∨ j.natAbs < Nat.pow 2 53) : nearest i = nearest j ↔ i = j := by
  refine ⟨fun same => ?_, fun same => same ▸ rfl⟩
  -- What has more digits is not rounded to fewer, so neither of two integers with one double has more.
  have digits {first second : Int} (same : nearest first = nearest second) (few : first.natAbs < Nat.pow 2 53) :
      second.natAbs < Nat.pow 2 53 := by
    by_contra many
    have large := le_nearestNat (Nat.not_lt.mp many)
    rw [← natAbs_nearest, ← same, nearest_eq_self (Nat.le_of_lt few)] at large
    omega
  have both : i.natAbs < Nat.pow 2 53 ∧ j.natAbs < Nat.pow 2 53 := by
    rcases small with few | few
    · exact ⟨few, digits same few⟩
    · exact ⟨digits same.symm few, few⟩
  rwa [nearest_eq_self (Nat.le_of_lt both.1), nearest_eq_self (Nat.le_of_lt both.2)] at same

/-- The first number with more digits than a mantissa shares its double with the next one, but not with the last one. -/
example : nearest 9007199254740993 = nearest 9007199254740992 ∧ nearest 9007199254740991 ≠ nearest 9007199254740992 := by
  decide +kernel

/-- What starts with a digit, with or without a minus in front, is read as a decimal and not as a word. -/
theorem read?_of_digit {body : List Char} (starts : ∃ c ∈ body.head?, isDigit c = true) (negative : Bool) :
    read? ((if negative then ['-'] else []) ++ body) = magnitude? negative body := by
  obtain ⟨c, first, digit⟩ := starts
  obtain ⟨more, rfl⟩ := List.head?_eq_some_iff.mp first
  have signless : c ≠ '+' ∧ c ≠ '-' := by
    constructor <;> rintro rfl <;> exact absurd digit (by decide)
  -- No word starts with a digit.
  have wordless {word : String} (letter : ∃ d ∈ word.toList.head?, isDigit d = false) :
      (String.ofList ((c :: more).map lowerChar) == word) = false := by
    refine beq_eq_false_iff_ne.mpr ?_
    rintro rfl
    obtain ⟨d, head, letter⟩ := letter
    rw [String.toList_ofList, List.map_cons, lowerChar_of_isDigit digit] at head
    obtain rfl : c = d := Option.some.inj head
    rw [digit] at letter
    cases letter
  have inf := @wordless "inf" ⟨'i', rfl, rfl⟩
  have infinity := @wordless "infinity" ⟨'i', rfl, rfl⟩
  have nan := @wordless "nan" ⟨'n', rfl, rfl⟩
  unfold read?
  split
  next sign =>
  cases negative with
  | true =>
    rw [if_pos rfl, List.singleton_append] at sign
    cases sign
    simp only [inf, infinity, nan, Bool.or_self, Bool.false_eq_true, if_false]
  | false =>
    rw [if_neg (by decide), List.nil_append] at sign
    split at sign
    · next same => exact absurd (List.cons.inj same).1 signless.1
    · next same => exact absurd (List.cons.inj same).1 signless.2
    · cases sign
      simp only [inf, infinity, nan, Bool.or_self, Bool.false_eq_true, if_false]

/-- The text of an integer is read as the double of the integer. -/
theorem read?_toString (i : Int) : read? (toString i).toList = some (ofInt i) := by
  obtain ⟨c, more, whole⟩ := List.exists_cons_of_ne_nil (toList_toString_ne_nil (n := i.natAbs))
  have starts : ∃ c ∈ (toString i.natAbs).toList.head?, isDigit c = true :=
    ⟨c, by rw [whole]; rfl, isDigit_of_mem_toString (by rw [whole]; exact List.mem_cons_self)⟩
  have sign : (if i < 0 then ['-'] else []) = if decide (i < 0) then ['-'] else [] := by simp
  rw [toList_toString_int, sign, read?_of_digit starts, magnitude?_toString]
  rfl

end Runbook.Double

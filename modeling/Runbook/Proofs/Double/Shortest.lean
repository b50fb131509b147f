import Runbook.Double.Layout
import Runbook.Proofs.Double.Grid

/-!
The shortest decimal of a double. A decimal is found for every positive double, since a grid of seventeen digits is finer
than the interval that is rounded to the double, and whatever is found lies in that interval. So a double is read back
from its shortest decimal, and from every other decimal of the same size.
-/

namespace Runbook.Double

open Runbook.Text

variable {negative tieUp : Bool} {num den mantissa : Nat} {exponent power : Int} {value : ℚ} {decimal : Decimal}

/-- The number that a decimal is. -/
def Decimal.toRat (decimal : Decimal) : ℚ := decimal.coefficient * 10 ^ decimal.power

/-! Decimals in an interval -/

/-- The step of a decimal grid in quarters of a mantissa unit, as a ratio. -/
def decimalStep (exponent power : Int) : Nat × Nat :=
  let quarter := exponent - 2
  let ten : Nat × Nat := if 0 ≤ power then (Nat.pow 10 power.toNat, 1) else (1, Nat.pow 10 (-power).toNat)
  if 0 ≤ quarter then (ten.1, ten.2 * Nat.pow 2 quarter.toNat) else (ten.1 * Nat.pow 2 (-quarter).toNat, ten.2)

theorem decimalStep_pos (exponent power : Int) :
    0 < (decimalStep exponent power).1 ∧ 0 < (decimalStep exponent power).2 := by
  unfold decimalStep
  extract_lets quarter ten
  have scaled : 0 < ten.1 ∧ 0 < ten.2 := by
    unfold ten
    split
    · exact ⟨Nat.pow_pos (by decide), Nat.one_pos⟩
    · exact ⟨Nat.one_pos, Nat.pow_pos (by decide)⟩
  split
  · exact ⟨scaled.1, Nat.mul_pos scaled.2 (Nat.two_pow_pos _)⟩
  · exact ⟨Nat.mul_pos scaled.1 (Nat.two_pow_pos _), scaled.2⟩

theorem decimalStep_eq (exponent power : Int) :
    ((decimalStep exponent power).1 : ℚ) / (decimalStep exponent power).2 * 2 ^ (exponent - 2) = 10 ^ power := by
  have sign (n : Int) : (∃ k : Nat, n = k ∧ (0 ≤ n) ∧ n.toNat = k) ∨
      ∃ k : Nat, n = -(k : Int) ∧ ¬0 ≤ n ∧ (-n).toNat = k := by
    by_cases whole : 0 ≤ n
    · exact .inl ⟨n.toNat, by omega, whole, rfl⟩
    · exact .inr ⟨(-n).toNat, by omega, whole, rfl⟩
  unfold decimalStep
  generalize exponent - 2 = quarter
  rcases sign quarter with ⟨k, same, whole, size⟩ | ⟨k, same, whole, size⟩ <;>
    rcases sign power with ⟨n, again, bound, length⟩ | ⟨n, again, bound, length⟩ <;>
    simp only [whole, bound, size, length, if_true, if_false] <;> rw [same, again] <;> simp <;> field_simp

/-- Positions on the decimal grid and bounds in quarters are compared as the numbers that they are. -/
theorem step_le_iff (bound k : Nat) :
    bound * (decimalStep exponent power).2 ≤ k * (decimalStep exponent power).1 ↔
      (bound : ℚ) * 2 ^ (exponent - 2) ≤ k * 10 ^ power := by
  have unit : (0 : ℚ) < 2 ^ (exponent - 2) := by positivity
  have pos : (0 : ℚ) < (decimalStep exponent power).2 := by exact_mod_cast (decimalStep_pos exponent power).2
  rw [← decimalStep_eq exponent power, ← mul_assoc, mul_le_mul_iff_left₀ unit, mul_div_assoc', le_div_iff₀ pos]
  exact_mod_cast Iff.rfl

theorem le_step_iff (bound k : Nat) :
    k * (decimalStep exponent power).1 ≤ bound * (decimalStep exponent power).2 ↔
      (k : ℚ) * 10 ^ power ≤ bound * 2 ^ (exponent - 2) := by
  have unit : (0 : ℚ) < 2 ^ (exponent - 2) := by positivity
  have pos : (0 : ℚ) < (decimalStep exponent power).2 := by exact_mod_cast (decimalStep_pos exponent power).2
  rw [← decimalStep_eq exponent power, ← mul_assoc, mul_le_mul_iff_left₀ unit, mul_div_assoc', div_le_iff₀ pos]
  exact_mod_cast Iff.rfl

/-- A position on a grid lies in an interval. -/
def RoundingInterval.inside (interval : RoundingInterval) (step : Nat × Nat) (k : Nat) : Bool :=
  if interval.closed then interval.low * step.2 ≤ k * step.1 && k * step.1 ≤ interval.high * step.2
  else interval.low * step.2 < k * step.1 && k * step.1 < interval.high * step.2

/-- One of the two neighbours of a value on a decimal grid is taken, if it lies in the interval. -/
theorem onDecimalGrid_eq (tieUp : Bool) (interval : RoundingInterval) (exponent power : Int) :
    onDecimalGrid tieUp interval exponent power =
      let step := decimalStep exponent power
      let below := interval.value * step.2 / step.1
      let twice := 2 * interval.value * step.2
      let middle := (2 * below + 1) * step.1
      let upper := middle < twice || (middle == twice && (tieUp || below % 2 == 1))
      match interval.inside step below, interval.inside step (below + 1) with
      | true, true => some ⟨if upper then below + 1 else below, power⟩
      | true, false => some ⟨below, power⟩
      | false, true => some ⟨below + 1, power⟩
      | false, false => none := rfl

theorem inside_iff {interval : RoundingInterval} {k : Nat} :
    interval.inside (decimalStep exponent power) k = true ↔ interval.Holds exponent (k * 10 ^ power) := by
  have low := @step_le_iff exponent power interval.low k
  have high := @le_step_iff exponent power interval.high k
  unfold RoundingInterval.inside
  split
  · next closed =>
    rw [Bool.and_eq_true, decide_eq_true_iff, decide_eq_true_iff, low, high]
    exact ⟨fun ⟨above, below⟩ => ⟨above, below, fun other => by rw [closed] at other; cases other⟩,
      fun holds => ⟨holds.low, holds.high⟩⟩
  · next other =>
    have above := (@le_step_iff exponent power interval.low k).not
    have below := (@step_le_iff exponent power interval.high k).not
    rw [not_le, not_le] at above below
    rw [Bool.and_eq_true, decide_eq_true_iff, decide_eq_true_iff, above, below]
    exact ⟨fun ⟨first, second⟩ => ⟨first.le, second.le, fun _ => ⟨first, second⟩⟩,
      fun holds => holds.inside (by simpa using other)⟩

/-- What is taken from a decimal grid lies in the interval, and is one of the neighbours of the value there. -/
theorem of_onDecimalGrid {interval : RoundingInterval}
    (found : onDecimalGrid tieUp interval exponent power = some decimal) :
    interval.Holds exponent decimal.toRat ∧
      interval.value * (decimalStep exponent power).2 / (decimalStep exponent power).1 ≤ decimal.coefficient := by
  rw [onDecimalGrid_eq] at found
  dsimp only at found
  generalize interval.value * (decimalStep exponent power).2 / (decimalStep exponent power).1 = below at found ⊢
  split at found
  next lower upper =>
    cases found
    dsimp only [Decimal.toRat]
    split
    · exact ⟨inside_iff.mp upper, Nat.le_succ below⟩
    · exact ⟨inside_iff.mp lower, Nat.le_refl below⟩
  next lower _ =>
    cases found
    exact ⟨inside_iff.mp lower, Nat.le_refl below⟩
  next _ upper =>
    cases found
    exact ⟨inside_iff.mp upper, Nat.le_succ below⟩
  next => cases found

/-- A decimal is found on a grid that is finer than the interval. -/
theorem exists_onDecimalGrid {interval : RoundingInterval} (low : interval.low < interval.value)
    (high : interval.value < interval.high)
    (narrow : (interval.low : ℚ) * 2 ^ (exponent - 2) + 10 ^ power < interval.high * 2 ^ (exponent - 2)) :
    ∃ decimal, onDecimalGrid tieUp interval exponent power = some decimal := by
  have pos := (decimalStep_pos exponent power).1
  have unit : (0 : ℚ) < 2 ^ (exponent - 2) := by positivity
  rw [onDecimalGrid_eq]
  dsimp only
  generalize taken : interval.value * (decimalStep exponent power).2 / (decimalStep exponent power).1 = below
  have under : (below : ℚ) * 10 ^ power ≤ interval.value * 2 ^ (exponent - 2) := by
    rw [← le_step_iff, ← taken]
    exact Nat.div_mul_le_self _ _
  have within : (interval.value : ℚ) * 2 ^ (exponent - 2) < (below + 1) * 10 ^ power := by
    have beyond := (@le_step_iff exponent power interval.value (below + 1)).not
    rw [not_le, not_le, Nat.cast_add, Nat.cast_one] at beyond
    rw [← beyond, ← Nat.div_lt_iff_lt_mul pos, taken]
    exact Nat.lt_succ_self below
  have lower : (interval.low : ℚ) < interval.value := by exact_mod_cast low
  have upper : (interval.value : ℚ) < interval.high := by exact_mod_cast high
  have either : interval.inside (decimalStep exponent power) below = true ∨
      interval.inside (decimalStep exponent power) (below + 1) = true := by
    rw [inside_iff, inside_iff]
    rcases lt_or_ge ((interval.low : ℚ) * 2 ^ (exponent - 2)) (below * 10 ^ power) with above | outside
    · have inside : (below : ℚ) * 10 ^ power < interval.high * 2 ^ (exponent - 2) := by nlinarith
      exact .inl ⟨above.le, inside.le, fun _ => ⟨above, inside⟩⟩
    · -- The lesser neighbour is outside, so the greater one is within a step of the lower bound.
      have above : (interval.low : ℚ) * 2 ^ (exponent - 2) < (below + 1 : Nat) * 10 ^ power := by
        push_cast
        nlinarith
      have inside : ((below + 1 : Nat) : ℚ) * 10 ^ power < interval.high * 2 ^ (exponent - 2) := by
        push_cast
        linarith
      exact .inr ⟨above.le, inside.le, fun _ => ⟨above, inside⟩⟩
  split
  next => exact ⟨_, rfl⟩
  next => exact ⟨_, rfl⟩
  next => exact ⟨_, rfl⟩
  next first second => simp [first, second] at either

/-! The place of the point -/

/-- Zeros are counted while the ratio is less than a tenth. -/
theorem leadingZeros_bound {places fuel count : Nat} (within : places ≤ fuel) (enough : den ≤ num * Nat.pow 10 places) :
    ∃ zeros, decimalPoint.leadingZeros num den fuel count = count + zeros ∧ den ≤ num * Nat.pow 10 (zeros + 1) := by
  have scaled (num power : Nat) : num * 10 * Nat.pow 10 power = num * Nat.pow 10 (power + 1) := by
    simp only [Nat.pow_eq, Nat.pow_succ]
    ring
  induction fuel generalizing num count places with
  | zero =>
    obtain rfl := Nat.le_zero.mp within
    exact ⟨0, rfl, enough.trans (Nat.mul_le_mul_left num (by decide))⟩
  | succ fuel ih =>
    unfold decimalPoint.leadingZeros
    split
    · next done => exact ⟨0, rfl, by simpa using done⟩
    · next small =>
      cases places with
      | zero => exact absurd (enough.trans (Nat.mul_le_mul_left num (by decide))) small
      | succ places =>
        obtain ⟨zeros, counted, bound⟩ := ih (Nat.le_of_succ_le_succ within) (enough.trans_eq (scaled num places).symm)
        exact ⟨zeros + 1, by rw [counted]; omega, bound.trans_eq (scaled num (zeros + 1))⟩

/-- A number in front of which the point stands at some place has its first digit there or earlier. -/
theorem decimalPoint_bound (pos : 0 < den) {places : Nat} (within : places ≤ 400)
    (enough : den ≤ num * Nat.pow 10 places) : (10 : ℚ) ^ (decimalPoint num den - 1) ≤ num / den := by
  have positive : (0 : ℚ) < den := by exact_mod_cast pos
  unfold decimalPoint
  split
  · next large =>
    have whole : 1 ≤ num / den := (Nat.one_le_div_iff pos).mpr large
    have length : (toString (num / den)).toList.length = (toString (num / den)).length := String.length_toList
    have some : 0 < (toString (num / den)).length := by
      rw [← length]
      exact List.length_pos_iff.mpr toList_toString_ne_nil
    generalize (toString (num / den)).length = digits at length some ⊢
    have bound : Nat.pow 10 (digits - 1) ≤ num / den := by
      by_contra below
      rcases Nat.eq_zero_or_pos (digits - 1) with single | more
      · rw [single] at below
        exact below whole
      · have fits := length_toString_le more (Nat.lt_of_not_le below)
        omega
    have power : (digits : Int) - 1 = ((digits - 1 : Nat) : Int) := by omega
    calc (10 : ℚ) ^ ((digits : Int) - 1) = (Nat.pow 10 (digits - 1) : Nat) := by rw [power]; simp
      _ ≤ (num / den : Nat) := by exact_mod_cast bound
      _ ≤ (num : ℚ) / den := Nat.cast_div_le
  · obtain ⟨zeros, counted, bound⟩ := @leadingZeros_bound num den places 400 0 within enough
    have power : -((0 + zeros : Nat) : Int) - 1 = -((zeros + 1 : Nat) : Int) := by omega
    rw [counted, power, zpow_neg, zpow_natCast, inv_le_iff_one_le_mul₀ (by positivity), div_mul_eq_mul_div,
      le_div_iff₀ positive, one_mul]
    exact_mod_cast bound

/-! The shortest decimal -/

/-- The interval of a double is not empty on either side of it, and it is narrower only at a power of two. -/
theorem roundingInterval_width (filled : mantissa ≠ 0) :
    (roundingInterval mantissa exponent).low < (roundingInterval mantissa exponent).value ∧
      (roundingInterval mantissa exponent).value < (roundingInterval mantissa exponent).high ∧
      ((roundingInterval mantissa exponent).low + 4 = (roundingInterval mantissa exponent).high ∨
        mantissa = Nat.pow 2 52 ∧
          (roundingInterval mantissa exponent).low + 3 = (roundingInterval mantissa exponent).high) := by
  unfold roundingInterval
  dsimp only
  split
  · next power => exact ⟨by omega, by omega, .inr ⟨power.1, by omega⟩⟩
  · exact ⟨by omega, by omega, .inl (by omega)⟩

/-- No double has more zeros behind the point than are counted. -/
theorem ratio_places (least : minExponent ≤ exponent) (filled : mantissa ≠ 0) :
    ∃ places ≤ 400, (ratio mantissa exponent).2 ≤ (ratio mantissa exponent).1 * Nat.pow 10 places := by
  have one : 1 ≤ mantissa := Nat.one_le_iff_ne_zero.mpr filled
  unfold ratio minExponent at *
  split
  · exact ⟨0, Nat.zero_le _, Nat.mul_pos (Nat.mul_pos one (Nat.two_pow_pos _)) Nat.one_pos⟩
  · generalize size : (-exponent).toNat = digits
    -- Three binary digits are less than a decimal one.
    refine ⟨(digits + 2) / 3, by omega, ?_⟩
    calc Nat.pow 2 digits ≤ Nat.pow 2 (3 * ((digits + 2) / 3)) := Nat.pow_le_pow_right (by decide) (by omega)
      _ = Nat.pow (2 ^ 3) ((digits + 2) / 3) := Nat.pow_mul 2 3 _
      _ ≤ Nat.pow 10 ((digits + 2) / 3) := Nat.pow_le_pow_left (by decide) _
      _ ≤ mantissa * Nat.pow 10 ((digits + 2) / 3) := Nat.le_mul_of_pos_left _ one

/-- On a grid of seventeen digits a positive decimal is found. -/
theorem exists_seventeen (small : mantissa < Nat.pow 2 53) (filled : mantissa ≠ 0)
    (fine : (10 : ℚ) ^ power * 10 ^ 16 ≤ mantissa * 2 ^ exponent) :
    ∃ decimal, onDecimalGrid tieUp (roundingInterval mantissa exponent) exponent power = some decimal ∧
      0 < decimal.coefficient := by
  obtain ⟨low, high, width⟩ := @roundingInterval_width mantissa exponent filled
  have unit : (0 : ℚ) < 2 ^ (exponent - 2) := by positivity
  have ten : (0 : ℚ) < 10 ^ power := by positivity
  rw [two_zpow_eq_quarters] at fine
  have bound : (mantissa : ℚ) < 2 ^ 53 := by exact_mod_cast small
  have narrow : ((roundingInterval mantissa exponent).low : ℚ) * 2 ^ (exponent - 2) + 10 ^ power <
      (roundingInterval mantissa exponent).high * 2 ^ (exponent - 2) := by
    rcases width with same | ⟨least, same⟩
    · rw [← same]
      push_cast
      nlinarith
    · rw [least] at fine
      rw [← same]
      push_cast at fine ⊢
      nlinarith
  obtain ⟨decimal, found⟩ := @exists_onDecimalGrid tieUp exponent power _ low high narrow
  refine ⟨decimal, found, lt_of_lt_of_le ?_ (of_onDecimalGrid found).2⟩
  refine Nat.div_pos ?_ (decimalStep_pos exponent power).1
  have first := (@le_step_iff exponent power (roundingInterval mantissa exponent).value 1).mpr
  rw [Nat.one_mul, Nat.cast_one, one_mul] at first
  refine first ?_
  have value : ((roundingInterval mantissa exponent).value : ℚ) = 4 * mantissa := by simp [roundingInterval]
  rw [value]
  nlinarith

/-- The shortest decimal of a positive double is positive and lies in the interval of the double. -/
theorem shortest_holds (normal : IsNormal (finite negative mantissa exponent)) (filled : mantissa ≠ 0) (tieUp : Bool) :
    0 < (shortest tieUp mantissa exponent).coefficient ∧
      (roundingInterval mantissa exponent).Holds exponent (shortest tieUp mantissa exponent).toRat := by
  obtain ⟨small, least, -, -⟩ := normal
  obtain ⟨places, within, enough⟩ := ratio_places least filled
  have point := decimalPoint_bound (ratio_pos mantissa exponent) within enough
  rw [ratio_eq] at point
  unfold shortest
  dsimp only
  generalize decimalPoint (ratio mantissa exponent).1 (ratio mantissa exponent).2 = place at point ⊢
  have fine : (10 : ℚ) ^ (place - (17 : Nat)) * 10 ^ 16 ≤ mantissa * 2 ^ exponent := by
    refine le_of_eq_of_le ?_ point
    rw [← zpow_natCast, ← zpow_add₀ (by norm_num)]
    congr 1
    push_cast
    omega
  obtain ⟨last, finds, positive⟩ := @exists_seventeen tieUp mantissa exponent _ small filled fine
  have found : ((List.range 18).findSome? fun (digits : Nat) =>
      (onDecimalGrid tieUp (roundingInterval mantissa exponent) exponent (place - digits)).filter
        (0 < ·.coefficient)).isSome := by
    rw [List.findSome?_isSome_iff]
    refine ⟨17, by decide, ?_⟩
    rw [finds, Option.filter_some, if_pos (decide_eq_true positive)]
    rfl
  obtain ⟨decimal, taken⟩ := Option.isSome_iff_exists.mp found
  rw [taken, Option.getD_some]
  obtain ⟨digits, -, chosen⟩ := List.exists_of_findSome?_eq_some taken
  obtain ⟨held, filled⟩ := Option.filter_eq_some_iff.mp chosen
  exact ⟨of_decide_eq_true filled, (of_onDecimalGrid held).1⟩

/-! Zeros at the end -/

/-- The zeros at the end of a written number are its factors of ten. -/
theorem eq_mul_pow_zeros (n : Nat) : ∃ lead,
    n = lead * Nat.pow 10 ((toString n).toList.reverse.takeWhile (· == '0')).length := by
  have split := List.takeWhile_append_dropWhile (p := (· == '0')) (l := (toString n).toList.reverse)
  have zeros : ∀ c ∈ (toString n).toList.reverse.takeWhile (· == '0'), c = '0' := fun c member => by
    simpa using List.mem_takeWhile_imp member
  generalize (toString n).toList.reverse.takeWhile (· == '0') = run at split zeros ⊢
  generalize (toString n).toList.reverse.dropWhile (· == '0') = rest at split
  have whole : (toString n).toList = rest.reverse ++ List.replicate run.length '0' := by
    rw [← List.reverse_reverse (toString n).toList, ← split, List.reverse_append]
    conv_lhs => rw [List.eq_replicate_of_mem zeros]
    rw [List.reverse_replicate]
  refine ⟨decimalValue rest.reverse, ?_⟩
  have value := decimalValue_toString n
  rw [whole, decimalValue_append, decimalValue_zeros, List.length_replicate] at value
  exact value.symm

/-- Without the zeros at its end a decimal is the same number. -/
theorem toRat_reduced (decimal : Decimal) (filled : 0 < decimal.coefficient) :
    0 < decimal.reduced.coefficient ∧ decimal.reduced.toRat = decimal.toRat := by
  obtain ⟨lead, factors⟩ := eq_mul_pow_zeros decimal.coefficient
  unfold Decimal.reduced Decimal.toRat
  dsimp only
  generalize ((toString decimal.coefficient).toList.reverse.takeWhile (· == '0')).length = zeros at factors ⊢
  have pos : 0 < Nat.pow 10 zeros := Nat.pow_pos (by decide)
  rw [factors] at filled
  rw [factors, Nat.mul_div_cancel _ pos]
  refine ⟨Nat.pos_of_mul_pos_right filled, ?_⟩
  rw [zpow_add₀ (by norm_num), zpow_natCast]
  push_cast
  simp only [Nat.pow_eq]
  push_cast
  ring

/-! Reading decimals -/

/-- Twenty-eight decimal digits are as many as ninety-three binary ones. -/
theorem two_zpow_le_ten_zpow (k : Nat) : (2 : ℚ) ^ ((93 * k : Nat) : Int) ≤ 10 ^ ((28 * k : Nat) : Int) := by
  rw [zpow_natCast, zpow_natCast, pow_mul, pow_mul]
  exact pow_le_pow_left₀ (by norm_num) (by norm_num) k

/-- No number in the range of doubles has more than so many digits before the point. -/
theorem power_le_of_lt {coefficient : Nat} (filled : coefficient ≠ 0) (inRange : exponent ≤ maxExponent)
    (less : (coefficient : ℚ) * 10 ^ power < 2 ^ 53 * 2 ^ exponent) : power ≤ 310 := by
  by_contra far
  have one : (1 : ℚ) ≤ coefficient := by exact_mod_cast Nat.one_le_iff_ne_zero.mpr filled
  have ten : (0 : ℚ) < 10 ^ power := by positivity
  have greatest : exponent ≤ 971 := inRange
  have reach : (2 : ℚ) ^ 53 * 2 ^ exponent ≤ 10 ^ power := by
    calc (2 : ℚ) ^ 53 * 2 ^ exponent = 2 ^ ((53 : Nat) + exponent) := by rw [zpow_add₀ (by norm_num), zpow_natCast]
      _ ≤ 2 ^ (((93 * 11 : Nat) : Int) + 1) := zpow_le_zpow_right₀ (by norm_num) (by omega)
      _ = 2 ^ ((93 * 11 : Nat) : Int) * 2 := zpow_add_one₀ (by norm_num) _
      _ ≤ 10 ^ ((28 * 11 : Nat) : Int) * 10 := mul_le_mul (two_zpow_le_ten_zpow 11) (by norm_num) (by norm_num)
          (by positivity)
      _ = 10 ^ (((28 * 11 : Nat) : Int) + 1) := (zpow_add_one₀ (by norm_num) _).symm
      _ ≤ 10 ^ power := zpow_le_zpow_right₀ (by norm_num) (by omega)
  nlinarith

/-- No number in the range of doubles has more than so many zeros behind the point. -/
theorem power_ge_of_le {coefficient : Nat} (least : minExponent ≤ exponent)
    (more : (2 : ℚ) ^ exponent / 2 ≤ coefficient * 10 ^ power) : -400 ≤ power + coefficient.log2 := by
  by_contra far
  have finest : -1074 ≤ exponent := least
  have digits : (coefficient : ℚ) < 2 ^ ((coefficient.log2 : Int) + 1) := by exact_mod_cast Nat.lt_log2_self
  generalize coefficient.log2 = length at far digits
  have tiny : (10 : ℚ) ^ power * (2 ^ ((93 * 14 : Nat) : Int) * 2 ^ (length : Int)) ≤ 1 := by
    calc (10 : ℚ) ^ power * (2 ^ ((93 * 14 : Nat) : Int) * 2 ^ (length : Int))
        ≤ 10 ^ power * (10 ^ ((28 * 14 : Nat) : Int) * 10 ^ (length : Int)) := by
          gcongr
          · exact two_zpow_le_ten_zpow 14
          · rw [zpow_natCast, zpow_natCast]
            exact pow_le_pow_left₀ (by norm_num) (by norm_num) length
      _ = 10 ^ (power + (((28 * 14 : Nat) : Int) + length)) := by
          rw [← zpow_add₀ (by norm_num), ← zpow_add₀ (by norm_num)]
      _ ≤ 10 ^ (0 : Int) := zpow_le_zpow_right₀ (by norm_num) (by omega)
      _ = 1 := zpow_zero _
  have large : (4 : ℚ) ≤ 2 ^ exponent * 2 ^ ((93 * 14 : Nat) : Int) := by
    calc (4 : ℚ) = 2 ^ (2 : Int) := by norm_num
      _ ≤ 2 ^ (exponent + ((93 * 14 : Nat) : Int)) := zpow_le_zpow_right₀ (by norm_num) (by omega)
      _ = 2 ^ exponent * 2 ^ ((93 * 14 : Nat) : Int) := zpow_add₀ (by norm_num) _ _
  have ten : (0 : ℚ) < 10 ^ power := by positivity
  have scale : (0 : ℚ) < 2 ^ ((93 * 14 : Nat) : Int) := zpow_pos (by norm_num) _
  rw [zpow_add_one₀ (by norm_num)] at digits
  generalize (2 : ℚ) ^ ((93 * 14 : Nat) : Int) = unit at tiny large scale
  generalize (2 : ℚ) ^ (length : Int) = bound at tiny digits
  have below : (coefficient : ℚ) * 10 ^ power * unit < 2 := by
    calc (coefficient : ℚ) * 10 ^ power * unit < bound * 2 * 10 ^ power * unit := by gcongr
      _ = 2 * (10 ^ power * (unit * bound)) := by ring
      _ ≤ 2 := by linarith
  have above : (2 : ℚ) ^ exponent / 2 * unit ≤ coefficient * 10 ^ power * unit := by gcongr
  linarith

/-- A decimal in the interval of a double is read as the double. -/
theorem ofDecimal_of_holds (normal : IsNormal (finite negative mantissa exponent)) (filled : mantissa ≠ 0)
    {coefficient : Nat} (holds : (roundingInterval mantissa exponent).Holds exponent (coefficient * 10 ^ power)) :
    ofDecimal negative coefficient power = finite negative mantissa exponent := by
  obtain ⟨small, least, inRange, -⟩ := id normal
  obtain ⟨low, high, -⟩ := holds_bounds holds filled
  have unit : (0 : ℚ) < 2 ^ exponent := by positivity
  have one : (1 : ℚ) ≤ mantissa := by exact_mod_cast Nat.one_le_iff_ne_zero.mpr filled
  have bound : (mantissa : ℚ) + 1 ≤ 2 ^ 53 := by exact_mod_cast small
  have ten : (0 : ℚ) < 10 ^ power := by positivity
  have nonzero : coefficient ≠ 0 := by
    rintro rfl
    rw [Nat.cast_zero, zero_mul] at low
    nlinarith
  have less : (coefficient : ℚ) * 10 ^ power < 2 ^ 53 * 2 ^ exponent := by nlinarith
  have more : (2 : ℚ) ^ exponent / 2 ≤ coefficient * 10 ^ power := by nlinarith
  have near := power_le_of_lt nonzero inRange less
  have large := power_ge_of_le least more
  unfold ofDecimal
  rw [if_neg nonzero, if_neg (Int.not_lt.mpr near), if_neg (Int.not_lt.mpr large)]
  split
  · next whole =>
    refine ofRatio_of_holds normal filled Nat.one_pos ?_
    obtain ⟨places, rfl⟩ := Int.eq_ofNat_of_zero_le whole
    rw [zpow_natCast] at holds
    simpa using holds
  · next fraction =>
    obtain ⟨places, rfl⟩ : ∃ places : Nat, power = -places := ⟨(-power).toNat, by omega⟩
    refine ofRatio_of_holds normal filled (Nat.pow_pos (by decide)) ?_
    rw [zpow_neg, zpow_natCast, ← div_eq_mul_inv] at holds
    simpa using holds

end Runbook.Double

import Mathlib.Algebra.Order.Field.Power
import Mathlib.Data.Nat.Cast.Order.Field
import Mathlib.Data.Rat.Cast.Order
import Mathlib.Tactic.FieldSimp
import Mathlib.Tactic.Positivity
import Mathlib.Tactic.Ring
import Runbook.Assertion.Duration
import Runbook.Proofs.Text.Decimal
import Runbook.Proofs.Text.Lines

/-!
Doubles in range. Every natural number up to `2 ^ 53` is a double itself, and written as a duration in milliseconds it is
read back as it was.
-/

namespace Runbook

open Runbook.Text

namespace Double

variable {negative : Bool} {n : Nat}

theorem onGrid_neg (num places : Nat) : onGrid num 1 (-(places : Int)) = (num * Nat.pow 2 places, 1) := by
  unfold onGrid
  cases places with
  | zero => simp
  | succ places =>
    rw [if_neg (by omega)]
    simp

theorem ratio_neg (mantissa places : Nat) : ratio mantissa (-(places : Int)) = (mantissa, Nat.pow 2 places) := by
  unfold ratio
  cases places with
  | zero => simp
  | succ places =>
    rw [if_neg (by omega)]
    simp

theorem ratio_zero (exponent : Int) : (ratio 0 exponent).1 = 0 := by
  unfold ratio
  split <;> simp

theorem roundHalfEven_one (num : Nat) : roundHalfEven num 1 = num := by
  simp [roundHalfEven, Nat.mod_one]

/-- The grid on which a whole number below `2 ^ 53` has a mantissa of full precision. -/
theorem gridExponent_one (pos : 0 < n) (small : n < Nat.pow 2 53) :
    gridExponent n 1 = -((52 - n.log2 : Nat) : Int) := by
  have log : n.log2 < 53 := (Nat.log2_lt (by omega)).mpr small
  have guess : max minExponent ((n.log2 : Int) - Nat.log2 1 - precision) = -((52 - n.log2 + 1 : Nat) : Int) := by
    have one : Nat.log2 1 = 0 := by decide
    rw [one]
    unfold minExponent precision
    omega
  have full : ¬n * Nat.pow 2 (52 - n.log2 + 1) / 1 < Nat.pow 2 precision := by
    rw [Nat.div_one, Nat.not_lt]
    calc Nat.pow 2 53 = Nat.pow 2 (n.log2 + (52 - n.log2 + 1)) := by congr 1; omega
      _ = Nat.pow 2 n.log2 * Nat.pow 2 (52 - n.log2 + 1) := Nat.pow_add 2 _ _
      _ ≤ n * Nat.pow 2 (52 - n.log2 + 1) := Nat.mul_le_mul_right _ (Nat.log2_self_le (by omega))
  unfold gridExponent
  simp only [guess, onGrid_neg, full, if_false]
  omega

/-- A whole number below `2 ^ 53` is not rounded. -/
theorem ofRatio_one (pos : 0 < n) (small : n < Nat.pow 2 53) :
    ofRatio negative n 1 = finite negative (n * Nat.pow 2 (52 - n.log2)) (-((52 - n.log2 : Nat) : Int)) := by
  have log : n.log2 < 53 := (Nat.log2_lt (by omega)).mpr small
  have room : n * Nat.pow 2 (52 - n.log2) < Nat.pow 2 precision :=
    calc n * Nat.pow 2 (52 - n.log2) < Nat.pow 2 (n.log2 + 1) * Nat.pow 2 (52 - n.log2) :=
          Nat.mul_lt_mul_of_pos_right Nat.lt_log2_self (Nat.two_pow_pos _)
      _ = Nat.pow 2 (n.log2 + 1 + (52 - n.log2)) := (Nat.pow_add 2 _ _).symm
      _ = Nat.pow 2 53 := by congr 1; omega
  have inRange : ¬maxExponent < -((52 - n.log2 : Nat) : Int) := by
    unfold maxExponent
    omega
  unfold ofRatio
  rw [if_neg (by omega)]
  simp only [gridExponent_one pos small, onGrid_neg, roundHalfEven_one, Nat.ne_of_lt room, if_false, inRange]

/-- The whole number below the double of a whole number up to `2 ^ 53` is that number. -/
theorem floorWithin_ofRatio_one {greatest : Nat} (small : n ≤ Nat.pow 2 53) :
    (ofRatio false n 1).floorWithin greatest = min greatest n := by
  rcases Nat.eq_zero_or_pos n with rfl | pos
  · have nothing : (ofRatio false 0 1).floorWithin greatest =
        min greatest ((ratio 0 minExponent).1 / (ratio 0 minExponent).2) := rfl
    rw [nothing, ratio_zero, Nat.zero_div]
  · rcases Nat.lt_or_eq_of_le small with less | rfl
    · have whole : n * Nat.pow 2 (52 - n.log2) / Nat.pow 2 (52 - n.log2) = n :=
        Nat.mul_div_cancel _ (Nat.two_pow_pos _)
      rw [ofRatio_one pos less]
      simp only [floorWithin, ratio_neg, whole]
    · have whole : ofRatio false (Nat.pow 2 53) 1 = finite false (Nat.pow 2 52) 1 := by decide +kernel
      rw [whole]
      rfl

theorem ofDecimal_zero (negative : Bool) (n : Nat) : ofDecimal negative n 0 = ofRatio negative n 1 := by
  unfold ofDecimal
  by_cases none : n = 0
  · rw [if_pos none, none]
    rfl
  · rw [if_neg none, if_neg (by decide), if_neg (by omega), if_pos (Int.le_refl 0)]
    simp

/-- Digits without a point and an exponent write a whole number. -/
theorem magnitude?_digits {digits : List Char} (some : digits ≠ []) (all : ∀ c ∈ digits, isDigit c = true) :
    magnitude? negative digits = .some (ofRatio negative (decimalValue digits) 1) := by
  unfold magnitude?
  rw [List.takeWhile_eq_self_iff.mpr all, List.dropWhile_eq_nil_iff.mpr all]
  simp [some, ofDecimal_zero]

/-- Digits with a point among them are read as a decimal. -/
theorem magnitude?_point {negative : Bool} {whole fraction : List Char} (filled : whole ≠ [])
    (digits : ∀ c ∈ whole ++ fraction, isDigit c = true) :
    magnitude? negative (whole ++ '.' :: fraction) =
      some (ofDecimal negative (decimalValue (whole ++ fraction)) (-(fraction.length : Int))) := by
  obtain ⟨front, behind⟩ := List.forall_mem_append.mp digits
  have point : ∀ c ∈ ('.' :: fraction).head?, isDigit c = false := by simp [isDigit]
  have some : whole.isEmpty = false := List.isEmpty_eq_false_iff.mpr filled
  unfold magnitude?
  rw [takeWhile_run front point, dropWhile_run front point]
  simp [List.takeWhile_eq_self_iff.mpr behind, List.dropWhile_eq_nil_iff.mpr behind, some]

/-- Written in digits a whole number is read as the double that is nearest to it. -/
theorem magnitude?_toString (negative : Bool) (n : Nat) :
    magnitude? negative (toString n).toList = some (ofRatio negative n 1) := by
  rw [magnitude?_digits toList_toString_ne_nil fun _ => isDigit_of_mem_toString, decimalValue_toString]

end Double

namespace Duration

/-- A number of milliseconds is read back from its digits with the unit behind them. -/
theorem millis?_toString (n : Nat) :
    millis? ((toString n).toList ++ ['m', 's']) = some (Double.ofRatio false n 1) := by
  have digits : ∀ c ∈ (toString n).toList, isDigit c = true := fun _ member => isDigit_of_mem_toString member
  have trimmed : trim ((toString n).toList ++ ['m', 's']) = (toString n).toList ++ ['m', 's'] :=
    ((isSolid_toString n).append (by decide)).isTrimmed
  have whole : ((toString n).toList ++ ['m', 's']).takeWhile isDigit = (toString n).toList := by
    rw [List.takeWhile_append_of_pos digits]
    simp [isDigit]
  have rest : ((toString n).toList ++ ['m', 's']).dropWhile isDigit = ['m', 's'] := by
    rw [List.dropWhile_append_of_pos digits]
    simp [isDigit]
  have unit : unit? (['m', 's'].dropWhile isBlank) = some 1 := by decide
  unfold millis?
  simp only [trimmed, whole, rest, List.isEmpty_eq_false_iff.mpr toList_toString_ne_nil, Bool.false_eq_true, if_false]
  simp only [Option.bind_eq_bind, Option.bind_some, Double.magnitude?_toString, unit]
  rfl

end Duration
end Runbook

/-!
Doubles in range: rounding adds at most one unit of the grid, so a ratio that is far below the greatest double is
rounded to a real number, and so is its quotient by a number that is not less than one.
-/

namespace Runbook.Double

variable {negative : Bool} {num den mantissa : Nat} {exponent : Int} {bound : Nat} {value divisor : Double}

/-- A double is a real number of at most `2 ^ bound`. -/
inductive Within (bound : Nat) : Double → Prop
  | finite {negative : Bool} {mantissa : Nat} {exponent : Int} (small : (mantissa : ℚ) * 2 ^ exponent ≤ 2 ^ bound) :
      Within bound (.finite negative mantissa exponent)

/-- A double is an infinity or a number that is not less than one. -/
def Large : Double → Prop
  | .finite _ mantissa exponent => (ratio mantissa exponent).2 ≤ (ratio mantissa exponent).1
  | .infinite _ => True
  | .notANumber _ => False

instance : DecidablePred Large
  | .finite _ mantissa exponent =>
    inferInstanceAs (Decidable ((ratio mantissa exponent).2 ≤ (ratio mantissa exponent).1))
  | .infinite _ => inferInstanceAs (Decidable True)
  | .notANumber _ => inferInstanceAs (Decidable False)

theorem Within.isFinite (within : Within bound value) : value.isFinite = true := by
  cases within
  rfl

theorem ratio_pos (mantissa : Nat) (exponent : Int) : 0 < (ratio mantissa exponent).2 := by
  unfold ratio
  split
  · exact Nat.one_pos
  · exact Nat.two_pow_pos _

theorem ratio_eq (mantissa : Nat) (exponent : Int) :
    ((ratio mantissa exponent).1 : ℚ) / (ratio mantissa exponent).2 = mantissa * 2 ^ exponent := by
  unfold ratio
  split
  next whole =>
    obtain ⟨power, rfl⟩ := Int.eq_ofNat_of_zero_le whole
    simp
  next fraction =>
    obtain ⟨power, rfl⟩ : ∃ power : Nat, exponent = -power := ⟨(-exponent).toNat, by omega⟩
    simp [div_eq_mul_inv]

theorem onGrid_eq (num den : Nat) (exponent : Int) :
    ((onGrid num den exponent).1 : ℚ) / (onGrid num den exponent).2 * 2 ^ exponent = num / den := by
  unfold onGrid
  split
  next whole =>
    obtain ⟨power, rfl⟩ := Int.eq_ofNat_of_zero_le whole
    have pos : (2 : ℚ) ^ power ≠ 0 := by positivity
    simp
    field_simp
  next fraction =>
    obtain ⟨power, rfl⟩ : ∃ power : Nat, exponent = -power := ⟨(-exponent).toNat, by omega⟩
    have pos : (2 : ℚ) ^ power ≠ 0 := by positivity
    simp
    field_simp

theorem roundHalfEven_le (num den : Nat) : roundHalfEven num den ≤ num / den + 1 := by
  unfold roundHalfEven
  have parity := Nat.mod_lt (num / den) (by decide : 0 < 2)
  dsimp only
  split
  · omega
  · split <;> omega

/-- The grid of a ratio is not coarser than the bound of the ratio asks for. -/
theorem gridExponent_le (filled : num ≠ 0) (le : num ≤ den * 2 ^ bound) :
    gridExponent num den ≤ bound - 52 := by
  have log : num.log2 < den.log2 + 1 + bound := by
    rw [Nat.log2_lt filled, Nat.pow_add]
    exact le.trans_lt (Nat.mul_lt_mul_of_pos_right Nat.lt_log2_self (Nat.two_pow_pos _))
  unfold gridExponent precision minExponent
  dsimp only
  split <;> omega

/-- Rounding on a grid adds at most one unit of the grid. -/
theorem roundHalfEven_onGrid_le (num den : Nat) (exponent : Int) :
    (roundHalfEven (onGrid num den exponent).1 (onGrid num den exponent).2 : ℚ) * 2 ^ exponent ≤
      num / den + 2 ^ exponent := by
  have unit : (0 : ℚ) ≤ 2 ^ exponent := by positivity
  have nearest : (roundHalfEven (onGrid num den exponent).1 (onGrid num den exponent).2 : ℚ) ≤
      (onGrid num den exponent).1 / (onGrid num den exponent).2 + 1 := by
    have below := roundHalfEven_le (onGrid num den exponent).1 (onGrid num den exponent).2
    calc (roundHalfEven (onGrid num den exponent).1 (onGrid num den exponent).2 : ℚ)
        ≤ (((onGrid num den exponent).1 / (onGrid num den exponent).2 : Nat) : ℚ) + 1 := by exact_mod_cast below
      _ ≤ (onGrid num den exponent).1 / (onGrid num den exponent).2 + 1 := by gcongr; exact Nat.cast_div_le
  calc _ ≤ ((onGrid num den exponent).1 / (onGrid num den exponent).2 + 1 : ℚ) * 2 ^ exponent := by gcongr
    _ = num / den + 2 ^ exponent := by rw [add_mul, onGrid_eq, one_mul]

/-- A ratio rounded on its own grid is at most twice the power of two above it. -/
theorem roundHalfEven_onGrid_le_pow {exponent : Int} (pos : 0 < den) (le : num ≤ den * 2 ^ bound)
    (grid : exponent ≤ bound) :
    (roundHalfEven (onGrid num den exponent).1 (onGrid num den exponent).2 : ℚ) * 2 ^ exponent ≤ 2 ^ (bound + 1) := by
  have ratio : (num : ℚ) / den ≤ 2 ^ bound := by
    rw [div_le_iff₀ (by exact_mod_cast pos), mul_comm]
    exact_mod_cast le
  have unit : (2 : ℚ) ^ exponent ≤ 2 ^ bound := by
    rw [← zpow_natCast]
    exact zpow_le_zpow_right₀ (by norm_num) grid
  calc _ ≤ (num : ℚ) / den + 2 ^ exponent := roundHalfEven_onGrid_le num den exponent
    _ ≤ 2 ^ bound + 2 ^ bound := by gcongr
    _ = 2 ^ (bound + 1) := by ring

/-- A ratio that is far below the greatest double is rounded to a real number. -/
theorem within_ofRatio (pos : 0 < den) (le : num ≤ den * 2 ^ bound) (small : bound ≤ 900) :
    Within (bound + 1) (ofRatio negative num den) := by
  unfold ofRatio
  split
  next none => exact .finite (by simp)
  next filled =>
  have grid := gridExponent_le filled le
  generalize gridExponent num den = exponent at grid
  have size := roundHalfEven_onGrid_le_pow pos le (by omega : exponent ≤ bound)
  dsimp only
  generalize roundHalfEven (onGrid num den exponent).1 (onGrid num den exponent).2 = mantissa at size ⊢
  by_cases full : mantissa = Nat.pow 2 precision
  · have inRange : ¬maxExponent < exponent + 1 := by
      unfold maxExponent
      omega
    have same : ((Nat.pow 2 (precision - 1) : Nat) : ℚ) * 2 ^ (exponent + 1) = mantissa * 2 ^ exponent := by
      rw [full, zpow_add_one₀ (by norm_num)]
      norm_num [precision]
      ring
    rw [if_pos full]
    dsimp only
    rw [if_neg inRange]
    exact .finite (same.trans_le size)
  · have inRange : ¬maxExponent < exponent := by
      unfold maxExponent
      omega
    rw [if_neg full]
    dsimp only
    rw [if_neg inRange]
    exact .finite size

/-- A quotient by what is not less than one stays in range. -/
theorem Within.div (within : Within bound value) (large : Large divisor) (small : bound ≤ 900) :
    Within (bound + 1) (div value divisor) := by
  cases within with
  | @finite negative mantissa exponent size =>
    cases divisor with
    | notANumber => cases large
    | infinite => exact .finite (by simp)
    | finite sign other power =>
      have first : ((ratio mantissa exponent).1 : ℚ) / (ratio mantissa exponent).2 ≤ 2 ^ bound :=
        (ratio_eq mantissa exponent).trans_le size
      rw [div_le_iff₀ (by exact_mod_cast ratio_pos mantissa exponent), mul_comm] at first
      have nonzero : other ≠ 0 := by
        rintro rfl
        have pos := ratio_pos 0 power
        have le : (ratio 0 power).2 ≤ (ratio 0 power).1 := large
        rw [ratio_zero] at le
        omega
      have quotient : div (.finite negative mantissa exponent) (.finite sign other power) = ofRatio (negative != sign)
          ((ratio mantissa exponent).1 * (ratio other power).2) ((ratio mantissa exponent).2 * (ratio other power).1) :=
        if_neg nonzero
      rw [quotient]
      have filled := (ratio_pos other power).trans_le large
      refine within_ofRatio (Nat.mul_pos (ratio_pos mantissa exponent) filled) ?_ small
      calc (ratio mantissa exponent).1 * (ratio other power).2
          ≤ (ratio mantissa exponent).2 * 2 ^ bound * (ratio other power).1 :=
            Nat.mul_le_mul (by exact_mod_cast first) large
        _ = (ratio mantissa exponent).2 * (ratio other power).1 * 2 ^ bound := Nat.mul_right_comm _ _ _

/-- A power of ten is not less than one, or counts as infinite. -/
theorem large_ofDecimal (power : Nat) : Large (ofDecimal false 1 power) := by
  by_cases far : 310 < power
  · unfold ofDecimal
    rw [if_neg (by decide), if_pos (by omega)]
    trivial
  · have all : ∀ power : Nat, power < 311 → Large (ofDecimal false 1 power) := by decide +kernel
    exact all power (by omega)

end Runbook.Double

import Mathlib.Tactic.Linarith
import Runbook.Double.Shortest
import Runbook.Proofs.Double.Nearest

/-!
The grid of a ratio and the ratios of a double. Every positive ratio has one grid on which it is rounded, and what is
rounded is in normal form. The ratios that are rounded to a double are those between the middles to its neighbours, and
the middles themselves where the mantissa is even.
-/

namespace Runbook.Double

variable {negative : Bool} {num den mantissa : Nat} {exponent other : Int} {value : ℚ}

/-! The grid of a ratio -/

/-- A positive number is rounded on the grid of an exponent: its mantissa there has full precision, or the grid is the
finest one and the mantissa has no more than that. -/
structure Fits (value : ℚ) (exponent : Int) : Prop where
  least : minExponent ≤ exponent
  below : value < 2 ^ 53 * 2 ^ exponent
  above : exponent = minExponent ∨ 2 ^ 52 * 2 ^ exponent ≤ value

theorem Fits.le (fits : Fits value exponent) (again : Fits value other) : exponent ≤ other := by
  by_contra beyond
  have coarser : other + 1 ≤ exponent := by omega
  rcases fits.above with finest | above
  · have := again.least
    omega
  · have grid : (2 : ℚ) ^ (other + 1) ≤ 2 ^ exponent := zpow_le_zpow_right₀ (by norm_num) coarser
    have below := again.below
    rw [zpow_add_one₀ (by norm_num)] at grid
    linarith

/-- A number is rounded on one grid only. -/
theorem Fits.unique (fits : Fits value exponent) (again : Fits value other) : exponent = other :=
  Int.le_antisymm (fits.le again) (again.le fits)

theorem onGrid_pos (pos : 0 < den) (num : Nat) (exponent : Int) : 0 < (onGrid num den exponent).2 := by
  unfold onGrid
  split
  · exact Nat.mul_pos pos (Nat.two_pow_pos _)
  · exact pos

/-- The mantissa of a ratio on a grid is below a bound where the ratio is that many units of the grid below it. -/
theorem onGrid_div_lt_iff (pos : 0 < den) (bound : Nat) :
    (onGrid num den exponent).1 / (onGrid num den exponent).2 < bound ↔ (num : ℚ) / den < bound * 2 ^ exponent := by
  have filled := onGrid_pos pos num exponent
  have unit : (0 : ℚ) < 2 ^ exponent := by positivity
  rw [Nat.div_lt_iff_lt_mul filled, ← onGrid_eq num den exponent, mul_lt_mul_iff_left₀ unit,
    div_lt_iff₀ (by exact_mod_cast filled)]
  exact_mod_cast Iff.rfl

theorem le_onGrid_div_iff (pos : 0 < den) (bound : Nat) :
    bound ≤ (onGrid num den exponent).1 / (onGrid num den exponent).2 ↔ (bound : ℚ) * 2 ^ exponent ≤ num / den := by
  rw [← not_lt, onGrid_div_lt_iff pos, not_lt]

/-- The binary digits of numerator and denominator bound a ratio. -/
theorem log2_bounds (filled : num ≠ 0) (pos : 0 < den) :
    (2 : ℚ) ^ ((num.log2 : Int) - den.log2 - 1) ≤ num / den ∧
      (num : ℚ) / den < 2 ^ ((num.log2 : Int) - den.log2 + 1) := by
  have bounds {n : Nat} (filled : n ≠ 0) : (2 : ℚ) ^ (n.log2 : Int) ≤ n ∧ (n : ℚ) < 2 ^ ((n.log2 : Int) + 1) := by
    constructor
    · exact_mod_cast Nat.log2_self_le filled
    · exact_mod_cast Nat.lt_log2_self
  obtain ⟨numLow, numHigh⟩ := bounds filled
  obtain ⟨denLow, denHigh⟩ := bounds pos.ne'
  have positive : (0 : ℚ) < den := by exact_mod_cast pos
  constructor
  · rw [le_div_iff₀ positive]
    calc (2 : ℚ) ^ ((num.log2 : Int) - den.log2 - 1) * den
        ≤ 2 ^ ((num.log2 : Int) - den.log2 - 1) * 2 ^ ((den.log2 : Int) + 1) := by gcongr
      _ = 2 ^ (num.log2 : Int) := by rw [← zpow_add₀ (by norm_num)]; congr 1; omega
      _ ≤ num := numLow
  · rw [div_lt_iff₀ positive]
    calc (num : ℚ) < 2 ^ ((num.log2 : Int) + 1) := numHigh
      _ = 2 ^ ((num.log2 : Int) - den.log2 + 1) * 2 ^ (den.log2 : Int) := by
        rw [← zpow_add₀ (by norm_num)]; congr 1; omega
      _ ≤ 2 ^ ((num.log2 : Int) - den.log2 + 1) * den := by gcongr

/-- The grid that is chosen for a positive ratio is the one on which it is rounded. -/
theorem fits_gridExponent (filled : num ≠ 0) (pos : 0 < den) : Fits ((num : ℚ) / den) (gridExponent num den) := by
  obtain ⟨low, high⟩ := log2_bounds filled pos
  have scale (power : Int) :
      (2 : ℚ) ^ 53 * 2 ^ power = 2 ^ (power + 53) ∧ (2 : ℚ) ^ 52 * 2 ^ power = 2 ^ (power + 52) := by
    constructor <;> rw [zpow_add₀ (by norm_num), mul_comm] <;> norm_cast
  unfold gridExponent precision
  dsimp only
  generalize guessed : max minExponent ((num.log2 : Int) - den.log2 - 53) = guess
  have least : minExponent ≤ guess := guessed ▸ le_max_left _ _
  have near : (num.log2 : Int) - den.log2 - 53 ≤ guess := guessed ▸ le_max_right _ _
  split
  · next below =>
    have size := (onGrid_div_lt_iff pos _).mp below
    refine ⟨least, by exact_mod_cast size, ?_⟩
    rcases le_total ((num.log2 : Int) - den.log2 - 53) minExponent with small | large
    · exact .inl (by omega)
    · refine .inr ?_
      have same : guess + 52 = (num.log2 : Int) - den.log2 - 1 := by omega
      rw [(scale guess).2, same]
      exact low
  · next beyond =>
    have size := (le_onGrid_div_iff pos _).mp (Nat.le_of_not_lt beyond)
    refine ⟨by omega, ?_, .inr ?_⟩
    · refine high.trans_le ?_
      rw [(scale _).1]
      exact zpow_le_zpow_right₀ (by norm_num) (by omega)
    · have same : (2 : ℚ) ^ 52 * 2 ^ (guess + 1) = 2 ^ 53 * 2 ^ guess := by
        rw [zpow_add_one₀ (by norm_num)]
        ring
      rw [same]
      exact_mod_cast size

theorem isNormal_zero (negative : Bool) : (zero negative).IsNormal := ⟨by decide, Int.le_refl _, by decide, .inr rfl⟩

/-- What is rounded is in normal form. -/
theorem isNormal_ofRatio (negative : Bool) (num : Nat) (pos : 0 < den) : (ofRatio negative num den).IsNormal := by
  unfold ofRatio
  split
  · exact isNormal_zero negative
  next filled =>
  obtain ⟨least, below, above⟩ := fits_gridExponent filled pos
  generalize gridExponent num den = exponent at least below above
  dsimp only
  have low : exponent = minExponent ∨
      Nat.pow 2 52 ≤ roundHalfEven (onGrid num den exponent).1 (onGrid num den exponent).2 := by
    refine above.imp_right fun full => ?_
    refine le_trans ?_ (le_roundHalfEven _ _)
    exact (le_onGrid_div_iff pos _).mpr (by exact_mod_cast full)
  have high : roundHalfEven (onGrid num den exponent).1 (onGrid num den exponent).2 ≤ Nat.pow 2 53 := by
    have size := roundHalfEven_le (onGrid num den exponent).1 (onGrid num den exponent).2
    have floor := (@onGrid_div_lt_iff num den exponent pos (Nat.pow 2 53)).mpr (by exact_mod_cast below)
    omega
  generalize roundHalfEven (onGrid num den exponent).1 (onGrid num den exponent).2 = mantissa at low high
  split
  · dsimp only
    split
    · trivial
    · next inRange => exact ⟨by decide, by omega, Int.not_lt.mp inRange, .inl (Nat.le_refl _)⟩
  · next notFull =>
    dsimp only
    split
    · trivial
    · next inRange => exact ⟨Nat.lt_of_le_of_ne high notFull, least, Int.not_lt.mp inRange, low.symm⟩

theorem isNormal_neg {x : Double} (normal : x.IsNormal) : x.neg.IsNormal := by
  cases x <;> exact normal

theorem isNormal_mul (first second : Double) : (mul first second).IsNormal := by
  unfold mul
  split
  · exact isNormal_ofRatio _ _ (Nat.mul_pos (ratio_pos _ _) (ratio_pos _ _))
  · trivial
  · split <;> trivial
  · split <;> trivial
  · trivial

theorem isNormal_div (first second : Double) : (div first second).IsNormal := by
  unfold div
  split
  next mantissa exponent other power =>
    split
    · split <;> trivial
    · next filled =>
      have pos : 0 < (ratio other power).1 := by
        unfold ratio
        split
        · exact Nat.mul_pos (Nat.pos_of_ne_zero filled) (Nat.two_pow_pos _)
        · exact Nat.pos_of_ne_zero filled
      exact isNormal_ofRatio _ _ (Nat.mul_pos (ratio_pos _ _) pos)
  · trivial
  · exact isNormal_zero _
  · trivial

/-! The ratios that are rounded to a double -/

/-- A ratio is rounded to a natural number that is no farther than a half from it, and at a half to an even one. -/
theorem roundHalfEven_eq (pos : 0 < den) (low : 2 * mantissa * den ≤ 2 * num + den)
    (high : 2 * num ≤ 2 * mantissa * den + den)
    (tie : mantissa % 2 = 1 → 2 * mantissa * den ≠ 2 * num + den ∧ 2 * num ≠ 2 * mantissa * den + den) :
    roundHalfEven num den = mantissa := by
  have split := Nat.div_add_mod num den
  have rest := Nat.mod_lt num pos
  unfold roundHalfEven
  dsimp only
  generalize num / den = quotient at split ⊢
  generalize num % den = remainder at split rest ⊢
  have near : quotient = mantissa ∨ mantissa = quotient + 1 := by
    rcases Nat.lt_trichotomy mantissa quotient with less | same | more
    · have scaled : (mantissa + 1) * den ≤ quotient * den := Nat.mul_le_mul_right den less
      nlinarith
    · exact .inl same.symm
    · by_contra far
      have scaled : (quotient + 2) * den ≤ mantissa * den := Nat.mul_le_mul_right den (by omega)
      nlinarith
  rcases near with rfl | rfl
  · have half : 2 * remainder ≤ den := by nlinarith
    rw [if_neg (show ¬den < 2 * remainder by omega)]
    split
    · rfl
    · next exact =>
      have even : quotient % 2 ≠ 1 := fun odd => (tie odd).2 (by nlinarith)
      omega
  · have half : den ≤ 2 * remainder := by nlinarith
    rw [if_neg (show ¬2 * remainder < den by omega)]
    split
    · rfl
    · next exact =>
      have odd : (quotient + 1) % 2 ≠ 1 := fun odd => (tie odd).1 (by nlinarith)
      omega

/-- On a grid a ratio is rounded to a mantissa that is no farther than half a unit from it. -/
theorem roundHalfEven_onGrid_eq (pos : 0 < den) (low : (mantissa : ℚ) * 2 ^ exponent ≤ num / den + 2 ^ exponent / 2)
    (high : (num : ℚ) / den ≤ mantissa * 2 ^ exponent + 2 ^ exponent / 2)
    (tie : mantissa % 2 = 1 → (mantissa : ℚ) * 2 ^ exponent ≠ num / den + 2 ^ exponent / 2 ∧
      (num : ℚ) / den ≠ mantissa * 2 ^ exponent + 2 ^ exponent / 2) :
    roundHalfEven (onGrid num den exponent).1 (onGrid num den exponent).2 = mantissa := by
  have filled := onGrid_pos pos num exponent
  rw [← onGrid_eq num den exponent] at low high tie
  generalize onGrid num den exponent = scaled at *
  have unit : (0 : ℚ) < 2 ^ exponent := by positivity
  have positive : (0 : ℚ) < scaled.2 := by exact_mod_cast filled
  have ratio : (scaled.1 : ℚ) = scaled.1 / scaled.2 * scaled.2 := by field_simp
  generalize (scaled.1 : ℚ) / scaled.2 = quotient at low high tie ratio
  have above : (mantissa : ℚ) ≤ quotient + 1 / 2 := le_of_mul_le_mul_right (by linarith) unit
  have below : quotient ≤ (mantissa : ℚ) + 1 / 2 := le_of_mul_le_mul_right (by linarith) unit
  refine roundHalfEven_eq filled ?_ ?_ fun odd => ⟨fun exact => ?_, fun exact => ?_⟩
  · have size : (2 * mantissa * scaled.2 : ℚ) ≤ 2 * scaled.1 + scaled.2 := by nlinarith
    exact_mod_cast size
  · have size : (2 * scaled.1 : ℚ) ≤ 2 * mantissa * scaled.2 + scaled.2 := by nlinarith
    exact_mod_cast size
  · have size : (2 * mantissa * scaled.2 : ℚ) = 2 * scaled.1 + scaled.2 := by exact_mod_cast exact
    have same : (mantissa : ℚ) = quotient + 1 / 2 := mul_right_cancel₀ positive.ne' (by linarith)
    exact (tie odd).1 (by rw [same]; ring)
  · have size : (2 * scaled.1 : ℚ) = 2 * mantissa * scaled.2 + scaled.2 := by exact_mod_cast exact
    have same : quotient = (mantissa : ℚ) + 1 / 2 := mul_right_cancel₀ positive.ne' (by linarith)
    exact (tie odd).2 (by rw [same]; ring)

/-- A number lies in an interval of quarters of a mantissa unit. -/
structure RoundingInterval.Holds (interval : RoundingInterval) (exponent : Int) (value : ℚ) : Prop where
  low : interval.low * 2 ^ (exponent - 2) ≤ value
  high : value ≤ interval.high * 2 ^ (exponent - 2)
  inside : interval.closed = false →
    interval.low * 2 ^ (exponent - 2) < value ∧ value < interval.high * 2 ^ (exponent - 2)

theorem two_zpow_eq_quarters (exponent : Int) : (2 : ℚ) ^ exponent = 4 * 2 ^ (exponent - 2) := by
  rw [zpow_sub₀ (by norm_num)]
  norm_num
  ring

/-- The bounds of an interval are at most half a mantissa unit away from the double. -/
theorem holds_bounds (holds : (roundingInterval mantissa exponent).Holds exponent value) (filled : mantissa ≠ 0) :
    (mantissa : ℚ) * 2 ^ exponent ≤ value + 2 ^ exponent / 2 ∧ value ≤ mantissa * 2 ^ exponent + 2 ^ exponent / 2 ∧
      (mantissa % 2 = 1 → (mantissa : ℚ) * 2 ^ exponent ≠ value + 2 ^ exponent / 2 ∧
        value ≠ mantissa * 2 ^ exponent + 2 ^ exponent / 2) := by
  have positive : (0 : ℚ) < 2 ^ (exponent - 2) := by positivity
  obtain ⟨low, high, inside⟩ := holds
  have lowest : (4 * mantissa - 2 : ℚ) ≤ (roundingInterval mantissa exponent).low := by
    have size : 4 * mantissa - 2 ≤ (roundingInterval mantissa exponent).low := by
      unfold roundingInterval
      dsimp only
      split <;> omega
    have whole : ((4 * mantissa - 2 : Nat) : ℚ) = 4 * mantissa - 2 := by
      rw [Nat.cast_sub (by omega)]
      push_cast
      ring
    rw [← whole]
    exact_mod_cast size
  have highest : ((roundingInterval mantissa exponent).high : ℚ) = 4 * mantissa + 2 := by
    simp [roundingInterval]
  have closed : (roundingInterval mantissa exponent).closed = decide (mantissa % 2 = 0) := rfl
  rw [two_zpow_eq_quarters exponent]
  rw [highest] at high inside
  refine ⟨by nlinarith, by nlinarith, fun odd => ?_⟩
  obtain ⟨above, below⟩ := inside (by rw [closed]; exact decide_eq_false (by omega))
  exact ⟨by intro same; nlinarith, by intro same; nlinarith⟩

/-- A ratio in the interval of a double is rounded to the double. -/
theorem ofRatio_of_holds (normal : IsNormal (finite negative mantissa exponent)) (filled : mantissa ≠ 0) (pos : 0 < den)
    (holds : (roundingInterval mantissa exponent).Holds exponent ((num : ℚ) / den)) :
    ofRatio negative num den = finite negative mantissa exponent := by
  obtain ⟨small, least, inRange, full⟩ := normal
  obtain ⟨low, high, tie⟩ := holds_bounds holds filled
  have unit : (0 : ℚ) < 2 ^ exponent := by positivity
  have one : (1 : ℚ) ≤ mantissa := by exact_mod_cast Nat.one_le_iff_ne_zero.mpr filled
  have positive : (0 : ℚ) < num / den := by nlinarith
  have nonzero : num ≠ 0 := by
    rintro rfl
    simp at positive
  have grid := fits_gridExponent nonzero pos
  have below : (num : ℚ) / den < 2 ^ 53 * 2 ^ exponent := by
    have bound : (mantissa : ℚ) + 1 ≤ 2 ^ 53 := by exact_mod_cast small
    nlinarith
  by_cases fits : Fits ((num : ℚ) / den) exponent
  · rw [ofRatio, if_neg nonzero]
    dsimp only
    rw [grid.unique fits, roundHalfEven_onGrid_eq pos low high tie, if_neg (Nat.ne_of_lt small)]
    dsimp only
    rw [if_neg (Int.not_lt.mpr inRange)]
  · -- A ratio below a power of two is rounded on the finer grid, up to that power.
    have outside : ¬(exponent = minExponent ∨ 2 ^ 52 * 2 ^ exponent ≤ (num : ℚ) / den) := fun above =>
      fits ⟨least, below, above⟩
    obtain ⟨coarse, less⟩ := not_or.mp outside
    have lower := not_le.mp less
    have power : mantissa = Nat.pow 2 52 := by
      refine le_antisymm ?_ (full.resolve_right coarse)
      by_contra more
      have bound : (2 ^ 52 : ℚ) + 1 ≤ mantissa := by exact_mod_cast not_le.mp more
      nlinarith
    have quarter := two_zpow_eq_quarters exponent
    have half : (2 : ℚ) ^ (exponent - 1) = 2 * 2 ^ (exponent - 2) := by
      rw [zpow_sub₀ (by norm_num), zpow_sub₀ (by norm_num)]
      norm_num
      ring
    have near : (2 ^ 54 - 1 : ℚ) * 2 ^ (exponent - 2) ≤ num / den := by
      have closer : (roundingInterval mantissa exponent).low = 2 ^ 54 - 1 := by
        rw [roundingInterval, if_pos ⟨power, coarse⟩, power]
        rfl
      have bound := holds.low
      rw [closer] at bound
      exact_mod_cast bound
    rw [quarter] at lower
    have finer : Fits ((num : ℚ) / den) (exponent - 1) := by
      refine ⟨by omega, ?_, .inr ?_⟩ <;> rw [half] <;> nlinarith
    have rounded : roundHalfEven (onGrid num den (exponent - 1)).1 (onGrid num den (exponent - 1)).2 = Nat.pow 2 53 := by
      have cast : ((Nat.pow 2 53 : Nat) : ℚ) = 2 ^ 53 := by norm_num
      refine roundHalfEven_onGrid_eq pos ?_ ?_ fun odd => absurd odd (by decide)
      · rw [cast, half]
        nlinarith
      · rw [cast, half]
        nlinarith
    rw [ofRatio, if_neg nonzero]
    dsimp only
    rw [grid.unique finer, rounded, if_pos (show Nat.pow 2 53 = Nat.pow 2 precision from rfl)]
    dsimp only
    rw [Int.sub_add_cancel, if_neg (Int.not_lt.mpr inRange), power]
    rfl

end Runbook.Double

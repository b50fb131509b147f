import Runbook.Proofs.Double.Order
import Runbook.Proofs.Double.Shortest

/-!
Thousandths. A number of thousandths is rounded to a double, and the product of this double with a thousand is rounded
again. The second rounding mostly takes back the first one, but not always.
-/

namespace Runbook.Double

variable {mantissa power : Nat} {value : ℚ}

/-- A number lies in the interval of a mantissa that is no farther than half a unit from it, and nearer where the
mantissa is odd; below a power of two the units are smaller. The number is told in parts of a unit. -/
theorem holds_of_near (part unit : Nat) (pos : 0 < unit) (same : value = part / unit * 2 ^ (-(power : Int)))
    (low : 2 * (mantissa * unit) ≤ 2 * part + unit) (high : 2 * part ≤ 2 * (mantissa * unit) + unit)
    (odd : mantissa % 2 = 1 → 2 * (mantissa * unit) ≠ 2 * part + unit ∧ 2 * part ≠ 2 * (mantissa * unit) + unit)
    (least : mantissa = Nat.pow 2 52 → mantissa * unit ≤ part) :
    (roundingInterval mantissa (-(power : Int))).Holds (-(power : Int)) value := by
  have positive : (0 : ℚ) < unit := Nat.cast_pos.mpr pos
  have grid : (0 : ℚ) < 2 ^ (-(power : Int) - 2) := by positivity
  have quarters : value = 4 * part / unit * 2 ^ (-(power : Int) - 2) := by
    rw [same, two_zpow_eq_quarters]
    ring
  have closed : (roundingInterval mantissa (-(power : Int))).closed = decide (mantissa % 2 = 0) := rfl
  have lowest : (roundingInterval mantissa (-(power : Int))).low * unit ≤ 4 * part ∧
      (mantissa % 2 = 1 → (roundingInterval mantissa (-(power : Int))).low * unit < 4 * part) := by
    unfold roundingInterval
    dsimp only
    split
    · next full =>
      have below := least full.1
      have even : mantissa % 2 = 0 := by rw [full.1]; rfl
      rw [Nat.sub_mul, Nat.mul_assoc]
      omega
    · rw [Nat.sub_mul, Nat.mul_assoc]
      refine ⟨by omega, fun is => ?_⟩
      have strict := (odd is).1
      have filled : unit ≤ mantissa * unit := Nat.le_mul_of_pos_left unit (by omega)
      omega
  have highest : 4 * part ≤ (roundingInterval mantissa (-(power : Int))).high * unit ∧
      (mantissa % 2 = 1 → 4 * part < (roundingInterval mantissa (-(power : Int))).high * unit) := by
    have bound : (roundingInterval mantissa (-(power : Int))).high = 4 * mantissa + 2 := rfl
    rw [bound, Nat.add_mul, Nat.mul_assoc]
    refine ⟨by omega, fun is => ?_⟩
    have strict := (odd is).2
    omega
  rw [quarters]
  refine ⟨?_, ?_, fun opens => ?_⟩
  · refine mul_le_mul_of_nonneg_right ?_ grid.le
    rw [le_div_iff₀ positive]
    exact_mod_cast lowest.1
  · refine mul_le_mul_of_nonneg_right ?_ grid.le
    rw [div_le_iff₀ positive]
    exact_mod_cast highest.1
  · rw [closed, decide_eq_false_iff_not] at opens
    have is : mantissa % 2 = 1 := by omega
    refine ⟨mul_lt_mul_of_pos_right ?_ grid, mul_lt_mul_of_pos_right ?_ grid⟩
    · rw [lt_div_iff₀ positive]
      exact_mod_cast lowest.2 is
    · rw [div_lt_iff₀ positive]
      exact_mod_cast highest.2 is

/-! Thousandths as doubles -/

/-- The mantissa of a natural number as a double. -/
def wholeMantissa (n : Nat) : Nat := n * Nat.pow 2 (52 - n.log2)

/-- The number of binary digits that the double of so many thousandths has behind the point, more than the double of as
many ones. -/
def thousandthShift (n : Nat) : Nat := if 125 * Nat.pow 2 46 ≤ wholeMantissa n then 9 else 10

/-- The mantissa of the double nearest to so many thousandths. -/
def thousandthMantissa (n : Nat) : Nat := (wholeMantissa n * Nat.pow 2 (thousandthShift n) + 500) / 1000

/-- The units in the last place by which the double of so many thousandths misses the number, scaled with a thousand. -/
def drift (n : Nat) : Int :=
  let rest := wholeMantissa n * 512 % 1000
  if 125 * Nat.pow 2 46 ≤ wholeMantissa n then
    if 256 < rest ∧ rest < 500 then -1 else if 500 < rest ∧ rest < 744 then 1 else 0
  else 0

/-- The mantissa of the double of so many thousandths, scaled with a thousand. -/
def scaledMantissa (n : Nat) : Nat := (wholeMantissa n + drift n).toNat

theorem drift_range (n : Nat) : drift n = 0 ∨ drift n = -1 ∨ drift n = 1 := by
  unfold drift
  dsimp only
  split
  · split
    · exact .inr (.inl rfl)
    · split
      · exact .inr (.inr rfl)
      · exact .inl rfl
  · exact .inl rfl

section

variable {n : Nat} (filled : n ≠ 0) (small : n < Nat.pow 2 40)
include filled small

theorem log2_le : n.log2 ≤ 39 := Nat.le_of_lt_succ ((Nat.log2_lt filled).mpr small)

/-- A number of at most forty binary digits has full precision as a double, and ends in zeros. -/
theorem wholeMantissa_bounds :
    4503599627370496 ≤ wholeMantissa n ∧ wholeMantissa n < 9007199254740992 ∧ wholeMantissa n % 2 = 0 := by
  have digits := log2_le filled small
  have whole : Nat.pow 2 n.log2 * Nat.pow 2 (52 - n.log2) = 4503599627370496 := by
    rw [Nat.pow_eq, Nat.pow_eq, ← Nat.pow_add, Nat.add_sub_of_le (by omega)]
  refine ⟨?_, ?_, ?_⟩
  · rw [← whole]
    exact Nat.mul_le_mul_right _ (Nat.log2_self_le filled)
  · calc wholeMantissa n < 2 ^ (n.log2 + 1) * Nat.pow 2 (52 - n.log2) :=
          Nat.mul_lt_mul_of_pos_right Nat.lt_log2_self (Nat.two_pow_pos _)
      _ = 2 * (Nat.pow 2 n.log2 * Nat.pow 2 (52 - n.log2)) := by
        rw [Nat.pow_succ', Nat.mul_assoc, ← Nat.pow_eq]
      _ = 9007199254740992 := by rw [whole]
  · obtain ⟨more, places⟩ : ∃ more, 52 - n.log2 = more + 1 := ⟨51 - n.log2, by omega⟩
    rw [wholeMantissa, places, Nat.pow_eq, Nat.pow_succ, ← Nat.mul_assoc, Nat.mul_mod_left]

/-- So many thousandths lie below or above their mantissa, and never in the middle between two mantissas. -/
theorem thousandthMantissa_rest :
    let parts := wholeMantissa n * Nat.pow 2 (thousandthShift n)
    parts % 1000 < 500 ∧ thousandthMantissa n * 1000 + parts % 1000 = parts ∨
      500 < parts % 1000 ∧ thousandthMantissa n * 1000 + parts % 1000 = parts + 1000 := by
  obtain ⟨-, -, even⟩ := wholeMantissa_bounds filled small
  have shift : Nat.pow 2 (thousandthShift n) % 8 = 0 := by
    unfold thousandthShift
    split <;> rfl
  have eighths : wholeMantissa n * Nat.pow 2 (thousandthShift n) % 8 = 0 := by
    rw [Nat.mul_mod, shift, Nat.mul_zero, Nat.zero_mod]
  unfold thousandthMantissa
  generalize wholeMantissa n * Nat.pow 2 (thousandthShift n) = parts at eighths
  omega

/-- The mantissa of so many thousandths has full precision, and it is none of the least mantissas. -/
theorem thousandthMantissa_bounds :
    4503599627370496 ≤ thousandthMantissa n ∧ thousandthMantissa n < 9007199254740992 ∧
      (thousandthMantissa n = 4503599627370496 →
        thousandthMantissa n * 1000 ≤ wholeMantissa n * Nat.pow 2 (thousandthShift n)) := by
  obtain ⟨low, high, even⟩ := wholeMantissa_bounds filled small
  have bound : 125 * Nat.pow 2 46 = 8796093022208000 := rfl
  have shift : Nat.pow 2 9 = 512 ∧ Nat.pow 2 10 = 1024 := ⟨rfl, rfl⟩
  unfold thousandthMantissa thousandthShift
  rw [bound]
  split
  · rw [shift.1]
    omega
  · rw [shift.2]
    omega

/-- The product with a thousand is no farther than half a unit from its mantissa, and nearer where this is odd. -/
theorem scaledMantissa_near :
    let unit := Nat.pow 2 (thousandthShift n)
    4503599627370496 ≤ scaledMantissa n ∧ scaledMantissa n < 9007199254740992 ∧
      2 * (scaledMantissa n * unit) ≤ 2 * (thousandthMantissa n * 1000) + unit ∧
      2 * (thousandthMantissa n * 1000) ≤ 2 * (scaledMantissa n * unit) + unit ∧
      (scaledMantissa n % 2 = 1 → 2 * (scaledMantissa n * unit) ≠ 2 * (thousandthMantissa n * 1000) + unit ∧
        2 * (thousandthMantissa n * 1000) ≠ 2 * (scaledMantissa n * unit) + unit) ∧
      (scaledMantissa n = 4503599627370496 → scaledMantissa n * unit ≤ thousandthMantissa n * 1000) := by
  obtain ⟨low, high, even⟩ := wholeMantissa_bounds filled small
  have rest := thousandthMantissa_rest filled small
  have bound : 125 * Nat.pow 2 46 = 8796093022208000 := rfl
  have shift : Nat.pow 2 9 = 512 ∧ Nat.pow 2 10 = 1024 := ⟨rfl, rfl⟩
  generalize thousandthMantissa n = thousandth at rest ⊢
  unfold scaledMantissa drift
  unfold thousandthShift at rest ⊢
  generalize wholeMantissa n = whole at *
  rw [bound] at rest ⊢
  by_cases wide : 8796093022208000 ≤ whole
  · simp only [wide, if_true, shift] at rest ⊢
    split
    · omega
    · split <;> omega
  · simp only [wide, if_false, shift] at rest ⊢
    omega

/-- A decimal of so many thousandths is read as their mantissa on their grid. -/
theorem ofDecimal_thousandths {coefficient : Nat} {power : Int} (value : (coefficient : ℚ) * 10 ^ power = n / 1000) :
    ofDecimal false coefficient power =
      finite false (thousandthMantissa n) (-((thousandthShift n + (52 - n.log2) : Nat) : Int)) := by
  obtain ⟨full, below, least⟩ := thousandthMantissa_bounds filled small
  have rest := thousandthMantissa_rest filled small
  have shift : thousandthShift n ≤ 10 := by
    unfold thousandthShift
    split <;> decide
  have normal :
      IsNormal (finite false (thousandthMantissa n) (-((thousandthShift n + (52 - n.log2) : Nat) : Int))) := by
    refine ⟨below, ?_, ?_, .inl full⟩
    · unfold minExponent
      omega
    · unfold maxExponent
      omega
  refine ofDecimal_of_holds normal (by omega) (holds_of_near (wholeMantissa n * Nat.pow 2 (thousandthShift n)) 1000
    (by decide) ?_ (by omega) (by omega) (by omega) least)
  rw [value, wholeMantissa, Nat.cast_mul, Nat.cast_mul, cast_pow_two, cast_pow_two, Nat.cast_add, neg_add,
    zpow_add₀ (by norm_num), zpow_neg, zpow_neg]
  field_simp
  norm_num

/-- The double of so many thousandths, scaled with a thousand. -/
theorem mul_thousand :
    mul (finite false (thousandthMantissa n) (-((thousandthShift n + (52 - n.log2) : Nat) : Int))) (ofInt 1000) =
      finite false (scaledMantissa n) (-((52 - n.log2 : Nat) : Int)) := by
  obtain ⟨full, below, low, high, odd, least⟩ := scaledMantissa_near filled small
  have thousand : ofInt 1000 = finite false 8796093022208000 (-43) := by decide
  have normal : IsNormal (finite false (scaledMantissa n) (-((52 - n.log2 : Nat) : Int))) := by
    refine ⟨below, ?_, ?_, .inl full⟩
    · unfold minExponent
      omega
    · unfold maxExponent
      omega
  rw [thousand]
  refine ofRatio_of_holds normal (by omega) (Nat.mul_pos (ratio_pos _ _) (ratio_pos _ _)) ?_
  refine holds_of_near (thousandthMantissa n * 1000) (Nat.pow 2 (thousandthShift n))
    (Nat.two_pow_pos _) ?_ low high odd least
  have whole : ((8796093022208000 : Nat) : ℚ) * 2 ^ (-43 : Int) = 1000 := by norm_num
  rw [Nat.cast_mul, Nat.cast_mul, mul_div_mul_comm, ratio_eq, ratio_eq, whole, Nat.cast_mul, cast_pow_two, Nat.cast_add,
    neg_add, zpow_add₀ (by norm_num), zpow_neg, zpow_neg]
  field_simp
  norm_num

/-! What the scaled thousandths are -/

/-- The mantissa is off by the drift. -/
theorem cast_scaledMantissa : (scaledMantissa n : Int) = (n : Int) * (Nat.pow 2 (52 - n.log2) : Nat) + drift n := by
  obtain ⟨low, -, -⟩ := wholeMantissa_bounds filled small
  have range := drift_range n
  rw [← Int.natCast_mul, ← wholeMantissa, scaledMantissa, Int.toNat_of_nonneg (by omega)]

/-- There are digits behind the point, so a drift is less than one. -/
theorem two_le_unit : 2 ≤ Nat.pow 2 (52 - n.log2) := by
  have digits := log2_le filled small
  exact Nat.pow_le_pow_right (Nat.two_pos) (by omega : 1 ≤ 52 - n.log2)

/-- As a rational the product is off by the drift, in units of its last place. -/
theorem toRat_scaled : (finite false (scaledMantissa n) (-((52 - n.log2 : Nat) : Int))).toRat =
    n + drift n * 2 ^ (-((52 - n.log2 : Nat) : Int)) := by
  have whole : (scaledMantissa n : ℚ) = n * 2 ^ ((52 - n.log2 : Nat) : Int) + drift n := by
    rw [← cast_pow_two]
    exact_mod_cast cast_scaledMantissa filled small
  rw [toRat, whole, zpow_neg]
  field_simp
  simp

/-- The whole number below the product is the number, or one less where the drift goes down. -/
theorem floorWithin_scaled (greatest : Nat) :
    (finite false (scaledMantissa n) (-((52 - n.log2 : Nat) : Int))).floorWithin greatest =
      min greatest (if drift n = -1 then n - 1 else n) := by
  have cast := cast_scaledMantissa filled small
  have large := two_le_unit filled small
  have floor : scaledMantissa n / Nat.pow 2 (52 - n.log2) = if drift n = -1 then n - 1 else n := by
    generalize Nat.pow 2 (52 - n.log2) = unit at cast large ⊢
    rw [← Int.natCast_mul] at cast
    rcases drift_range n with none | down | up
    · rw [if_neg (by omega), show scaledMantissa n = n * unit by omega, Nat.mul_div_cancel _ (by omega)]
    · obtain ⟨before, next⟩ := Nat.exists_eq_succ_of_ne_zero filled
      rw [if_pos down, next, Nat.succ_sub_one]
      rw [down, next, Nat.succ_mul] at cast
      refine Nat.div_eq_of_lt_le (by omega) ?_
      rw [Nat.succ_mul]
      omega
    · rw [if_neg (by omega)]
      refine Nat.div_eq_of_lt_le (by omega) ?_
      rw [Nat.succ_mul]
      omega
  simp only [floorWithin, ratio_neg, floor]

/-- The product is an integer only without a drift, and then it is the number itself. -/
theorem same_scaled_iff {m : Nat} (below : m < Nat.pow 2 64) :
    (ofInt m).same (finite false (scaledMantissa n) (-((52 - n.log2 : Nat) : Int))) = true ↔ drift n = 0 ∧ m = n := by
  have cast := cast_scaledMantissa filled small
  have large := two_le_unit filled small
  have digits := log2_le filled small
  obtain ⟨sign, mantissa, exponent, made, size, -⟩ := exists_ofInt (i := m) (by simpa using below)
  have itself : nearest n = n := nearest_eq_self (by
    rw [Int.natAbs_natCast]
    exact Nat.le_of_lt (Nat.lt_trans small (by decide)))
  have apart : nearest m = nearest n ↔ (m : Int) = n := nearest_eq_iff (.inr (by
    rw [Int.natAbs_natCast]
    exact Nat.lt_trans small (by decide)))
  have own : Double.units false (scaledMantissa n) (-((52 - n.log2 : Nat) : Int)) =
      scaledMantissa n * (Nat.pow 2 (-((52 - n.log2 : Nat) : Int) - minExponent).toNat : Nat) := rfl
  have places : (-minExponent).toNat = (52 - n.log2) + (-((52 - n.log2 : Nat) : Int) - minExponent).toNat := by
    unfold minExponent
    omega
  have one : unitsInOne = Nat.pow 2 ((52 - n.log2) + (-((52 - n.log2 : Nat) : Int) - minExponent).toNat) := by
    unfold unitsInOne
    generalize (-minExponent).toNat = whole at places ⊢
    rw [places]
  rw [made, same, beq_iff_eq, size, own, one, cast]
  generalize (-((52 - n.log2 : Nat) : Int) - minExponent).toNat = rest
  generalize 52 - n.log2 = shift at large ⊢
  have powers : Nat.pow 2 (shift + rest) = Nat.pow 2 shift * Nat.pow 2 rest := Nat.pow_add 2 shift rest
  have finest : ((Nat.pow 2 rest : Nat) : Int) ≠ 0 := Int.natCast_ne_zero.mpr (Nat.two_pow_pos rest).ne'
  rw [powers, Int.natCast_mul, ← Int.mul_assoc, Int.mul_eq_mul_right_iff finest]
  generalize Nat.pow 2 shift = unit at large ⊢
  constructor
  · intro same
    have multiple : drift n = (nearest m - n) * unit := by
      rw [Int.sub_mul, same]
      omega
    have none : drift n = 0 := by
      have divides : (unit : Int) ∣ drift n := Dvd.intro_left _ multiple.symm
      have size : (drift n).natAbs ≤ 1 := by
        rcases drift_range n with none | down | up <;> omega
      exact Int.eq_zero_of_dvd_of_natAbs_lt_natAbs divides (by rw [Int.natAbs_natCast]; omega)
    refine ⟨none, ?_⟩
    rw [none, Int.add_zero, Int.mul_eq_mul_right_iff (by omega), ← itself] at same
    exact Int.natCast_inj.mp (apart.mp same)
  · rintro ⟨none, rfl⟩
    rw [none, itself, Int.add_zero]

end

/-- A double is so many thousandths, scaled with a thousand: off by the drift, in units of its last place. The whole
number below it is one too small where the drift goes down, and the double is that of an integer only where there is no
drift, and then of the number alone. -/
structure IsScaled (n : Nat) (size : Double) : Prop where
  isFinite : size.isFinite = true
  onGrid : size.OnGrid
  toRat : size.toRat = n + drift n * 2 ^ (-((52 - n.log2 : Nat) : Int))
  floorWithin (greatest : Nat) : size.floorWithin greatest = min greatest (if drift n = -1 then n - 1 else n)
  same_iff {m : Nat} (below : m < Nat.pow 2 64) : (ofInt m).same size = true ↔ drift n = 0 ∧ m = n

theorem isScaled_zero : IsScaled 0 (zero false) where
  isFinite := rfl
  onGrid := Int.le_refl _
  toRat := by
    have still : drift 0 = 0 := by decide
    simp [zero, Double.toRat, still]
  floorWithin greatest := by
    have nothing : (zero false).floorWithin greatest =
        min greatest ((ratio 0 minExponent).1 / (ratio 0 minExponent).2) := rfl
    have still : (if drift 0 = -1 then 0 - 1 else 0) = 0 := by decide
    rw [nothing, ratio_zero, Nat.zero_div, still]
  same_iff {m} below := by
    have still : drift 0 = 0 := by decide
    have whole : zero false = ofInt 0 := by decide
    rw [whole, same_ofInt_iff (by simpa using below) (by decide), nearest_eq_iff (.inr (by decide))]
    omega

/-- So many thousandths, read from a decimal, are scaled with a thousand. -/
theorem isScaled_mul {n : Nat} (small : n < Nat.pow 2 40) {coefficient : Nat} {power : Int}
    (value : (coefficient : ℚ) * 10 ^ power = n / 1000) :
    IsScaled n ((ofDecimal false coefficient power).mul (ofInt 1000)) := by
  by_cases none : n = 0
  · have ten : (10 : ℚ) ^ power ≠ 0 := by positivity
    obtain rfl : coefficient = 0 := by simpa [none, ten] using value
    have product : (ofDecimal false 0 power).mul (ofInt 1000) = zero false := by
      rw [ofDecimal, if_pos rfl]
      decide
    rw [none, product]
    exact isScaled_zero
  · rw [ofDecimal_thousandths none small value, mul_thousand none small]
    have least : minExponent ≤ -((52 - n.log2 : Nat) : Int) := by
      unfold minExponent
      omega
    exact ⟨rfl, least, toRat_scaled none small, floorWithin_scaled none small, same_scaled_iff none small⟩

end Runbook.Double

import Mathlib.Data.Int.ConditionallyCompleteOrder
import Mathlib.Order.WithBot
import Runbook.Proofs.Double.Nearest

/-!
The order of numbers. All doubles but what is no number stand on one line, from the one infinity over the real numbers
to the other, and doubles compare as their places on this line. Where both are real numbers they compare as rationals.
-/

namespace Runbook.Double

open Runbook.Text

/-- A double that is a real number or an infinity. -/
def IsNumber : Double → Prop
  | notANumber _ => False
  | _ => True

/-- The place of a number on the line of all numbers; a real number stands at its units of the finest grid. -/
def place : Double → WithBot (WithTop Int)
  | finite negative mantissa exponent => ((units negative mantissa exponent : WithTop Int) : WithBot (WithTop Int))
  | infinite true => ⊥
  | _ => ⊤

/-- The rational number that a real double is. -/
def toRat : Double → ℚ
  | finite negative mantissa exponent => (if negative then -1 else 1) * mantissa * 2 ^ exponent
  | _ => 0

/-- A double that is no finer than the finest grid, so that its units are whole. -/
def OnGrid : Double → Prop
  | finite _ _ exponent => minExponent ≤ exponent
  | _ => True

variable {first second : Double} {negative : Bool} {mantissa : Nat} {exponent : Int}

theorem IsNumber.of_isFinite (finite : first.isFinite = true) : first.IsNumber := by
  cases first with
  | finite | infinite => trivial
  | notANumber => cases finite

/-! Comparisons -/

/-- Numbers are less where their places are. -/
theorem less_iff (left : first.IsNumber) (right : second.IsNumber) :
    first.less second = true ↔ first.place < second.place := by
  cases first with
  | notANumber => cases left
  | finite s m e =>
    cases second with
    | notANumber => cases right
    | finite t n f => simp [less, place]
    | infinite t =>
      have above : ((units s m e : WithTop Int) : WithBot (WithTop Int)) < ⊤ :=
        WithBot.coe_lt_coe.mpr (WithTop.coe_lt_top _)
      cases t <;> simp [less, place, above]
  | infinite s =>
    cases second with
    | notANumber => cases right
    | finite t n f => cases s <;> simp [less, place]
    | infinite t => cases s <;> cases t <;> simp [less, place]

/-- Numbers are the same where their places are. -/
theorem same_iff (left : first.IsNumber) (right : second.IsNumber) :
    first.same second = true ↔ first.place = second.place := by
  cases first with
  | notANumber => cases left
  | finite s m e =>
    cases second with
    | notANumber => cases right
    | finite t n f => simp [same, place]
    | infinite t => cases t <;> simp [same, place]
  | infinite s =>
    cases second with
    | notANumber => cases right
    | finite t n f => cases s <;> simp [same, place]
    | infinite t => cases s <;> cases t <;> simp [same, place]

theorem atMost_iff (left : first.IsNumber) (right : second.IsNumber) :
    first.atMost second = true ↔ first.place ≤ second.place := by
  rw [atMost, Bool.or_eq_true, less_iff left right, same_iff left right, le_iff_lt_or_eq]

theorem cast_pow_two (power : Nat) : ((Nat.pow 2 power : Nat) : ℚ) = 2 ^ (power : Int) := by
  rw [Nat.pow_eq, Nat.cast_pow, Nat.cast_ofNat, zpow_natCast]

theorem cast_unitsInOne : (unitsInOne : ℚ) = 2 ^ (-minExponent) := by
  have whole : ((-minExponent).toNat : Int) = -minExponent := by decide
  unfold unitsInOne
  conv_rhs => rw [← whole]
  generalize (-minExponent).toNat = power
  exact cast_pow_two power

/-- The units of a real number are that many times one. -/
theorem cast_units (grid : OnGrid (finite negative mantissa exponent)) :
    (units negative mantissa exponent : ℚ) = toRat (finite negative mantissa exponent) * unitsInOne := by
  have least : minExponent ≤ exponent := grid
  have power : ((exponent - minExponent).toNat : Int) = exponent + -minExponent := by omega
  have magnitude : (((mantissa : Int) * (Nat.pow 2 (exponent - minExponent).toNat : Nat) : Int) : ℚ) =
      mantissa * 2 ^ exponent * unitsInOne := by
    rw [Int.cast_mul, Int.cast_natCast, Int.cast_natCast, cast_pow_two, power, zpow_add₀ (by norm_num), mul_assoc,
      cast_unitsInOne]
  unfold units toRat
  cases negative with
  | false => simpa only [Bool.false_eq_true, if_false, one_mul] using magnitude
  | true => simpa only [if_true, Int.cast_neg, neg_mul, one_mul, neg_inj] using magnitude

/-- Real numbers compare as rationals. -/
theorem atMost_iff_toRat (left : first.isFinite = true) (right : second.isFinite = true) (grid : first.OnGrid)
    (other : second.OnGrid) : first.atMost second = true ↔ first.toRat ≤ second.toRat := by
  rw [atMost_iff (.of_isFinite left) (.of_isFinite right)]
  cases first with
  | infinite | notANumber => cases left
  | finite s m e =>
    cases second with
    | infinite | notANumber => cases right
    | finite t n f =>
      have unit : (0 : ℚ) < unitsInOne := Nat.cast_pos.mpr unitsInOne_pos
      rw [place, place, WithBot.coe_le_coe, WithTop.coe_le_coe, ← Int.cast_le (R := ℚ), cast_units grid,
        cast_units other, mul_le_mul_iff_left₀ unit]

/-- The units of a whole number are the integer in units of the finest grid. -/
theorem units_of_integer? (grid : OnGrid (finite negative mantissa exponent)) {i : Int}
    (whole : integer? (finite negative mantissa exponent) = some i) :
    units negative mantissa exponent = i * unitsInOne := by
  unfold integer? at whole
  dsimp only at whole
  split at whole
  · next divides =>
    have quotient := (Nat.div_mul_cancel (Nat.dvd_of_mod_eq_zero divides)).symm
    rw [units_of_ratio grid quotient, ← Option.some.inj whole, Int.natCast_ediv]
  · cases whole

/-! Where doubles come from -/

/-- Every ratio is rounded to a number. -/
theorem isNumber_ofRatio (negative : Bool) (num den : Nat) : (ofRatio negative num den).IsNumber := by
  unfold ofRatio
  split
  · trivial
  · dsimp only
    split <;> split <;> trivial

theorem onGrid_zero (negative : Bool) : (zero negative).OnGrid := Int.le_refl _

/-- Every ratio is rounded on a grid. -/
theorem onGrid_ofRatio (negative : Bool) (num den : Nat) : (ofRatio negative num den).OnGrid := by
  have least : minExponent ≤ gridExponent num den := by
    unfold gridExponent
    dsimp only
    split <;> omega
  unfold ofRatio
  split
  · exact onGrid_zero negative
  · dsimp only
    split
    · split
      · trivial
      · exact Int.le_trans least (by omega)
    · split
      · trivial
      · exact least

theorem onGrid_ofDecimal (negative : Bool) (coefficient : Nat) (power : Int) :
    (ofDecimal negative coefficient power).OnGrid := by
  unfold ofDecimal
  split
  · exact onGrid_zero negative
  split
  · trivial
  split
  · exact onGrid_zero negative
  split <;> exact onGrid_ofRatio _ _ _

theorem onGrid_mul (first second : Double) : (mul first second).OnGrid := by
  unfold mul
  split
  · exact onGrid_ofRatio _ _ _
  · trivial
  · split <;> trivial
  · split <;> trivial
  · trivial

/-- A character of a decimal. -/
def isDecimalChar (c : Char) : Bool := isDigit c || ['.', 'e', 'E', '+', '-'].contains c

theorem isDecimalChar_of_exponent? {text : List Char} {power : Int} (read : exponent? text = some power) :
    ∀ c ∈ text, isDecimalChar c = true := by
  unfold exponent? at read
  split at read
  next negative digits sign =>
  have all : ∀ c ∈ digits, isDecimalChar c = true := by
    by_cases run : (!digits.isEmpty && digits.all isDigit) = true
    · intro c member
      have digit := List.all_eq_true.mp (Bool.and_eq_true_iff.mp run).2 c member
      simp [isDecimalChar, digit]
    · rw [if_neg run] at read
      cases read
  split at sign <;> cases sign
  · exact List.forall_mem_cons.mpr ⟨by decide, all⟩
  · exact List.forall_mem_cons.mpr ⟨by decide, all⟩
  · exact all

/-- What is read as a decimal has its characters, and is a decimal fraction that is rounded. -/
theorem of_magnitude? {text : List Char} {value : Double} (read : magnitude? negative text = some value) :
    (∀ c ∈ text, isDecimalChar c = true) ∧ ∃ coefficient power, value = ofDecimal negative coefficient power := by
  have digits (text : List Char) : ∀ c ∈ text.takeWhile isDigit, isDecimalChar c = true := fun c member => by
    simp [isDecimalChar, List.mem_takeWhile_imp member]
  unfold magnitude? at read
  split at read
  next fraction rest parts =>
  have front : (∀ c ∈ rest, isDecimalChar c = true) → ∀ c ∈ text, isDecimalChar c = true := by
    intro behind
    rw [← List.takeWhile_append_dropWhile (p := isDigit) (l := text)]
    refine List.forall_mem_append.mpr ⟨digits text, ?_⟩
    split at parts
    · next more split =>
      cases parts
      rw [split, ← List.takeWhile_append_dropWhile (p := isDigit) (l := more)]
      exact List.forall_mem_cons.mpr ⟨by decide, List.forall_mem_append.mpr ⟨digits more, behind⟩⟩
    · cases parts
      exact behind
  dsimp only at read
  split at read
  · cases read
  split at read
  · cases read
    exact ⟨front (by simp), _, _, rfl⟩
  · split at read
    · next mark exponent marked =>
      obtain ⟨power, written, rfl⟩ := Option.map_eq_some_iff.mp read
      have isMark : isDecimalChar mark = true := by
        rcases Bool.or_eq_true_iff.mp marked with lower | upper
        · rw [beq_iff_eq.mp lower]
          decide
        · rw [beq_iff_eq.mp upper]
          decide
      exact ⟨front (List.forall_mem_cons.mpr ⟨isMark, isDecimalChar_of_exponent? written⟩), _, _, rfl⟩
    · cases read

/-- A text that is read as a real number is a decimal. -/
theorem of_read? {text : List Char} {value : Double} (read : read? text = some value)
    (finite : value.isFinite = true) : (∀ c ∈ text, isDecimalChar c = true) ∧ value.OnGrid := by
  unfold read? at read
  split at read
  next negative body sign =>
  dsimp only at read
  split at read
  · cases read
    cases finite
  split at read
  · cases read
    cases finite
  obtain ⟨all, coefficient, power, rfl⟩ := of_magnitude? read
  refine ⟨?_, onGrid_ofDecimal _ _ _⟩
  split at sign <;> cases sign
  · exact List.forall_mem_cons.mpr ⟨by decide, all⟩
  · exact List.forall_mem_cons.mpr ⟨by decide, all⟩
  · exact all

end Runbook.Double

import Runbook.Double.Basic

/-!
The shortest decimal that reads back as a given double: among the decimals that round to it, one with the fewest
digits, and among those the nearest.
-/

namespace Runbook.Double

/-- The bounds of the reals that round to a positive double, and the double itself, in quarters of a mantissa unit.
The lower neighbour of a power of two is only half as far away as the upper one. -/
structure RoundingInterval where
  low : Nat
  value : Nat
  high : Nat
  /-- The bounds themselves round to the double. -/
  closed : Bool

/-- The interval of reals that round to a positive double, in quarters of a mantissa unit. -/
def roundingInterval (mantissa : Nat) (exponent : Int) : RoundingInterval where
  low := if mantissa = Nat.pow 2 (precision - 1) ∧ exponent ≠ minExponent then 4 * mantissa - 1 else 4 * mantissa - 2
  value := 4 * mantissa
  high := 4 * mantissa + 2
  closed := mantissa % 2 = 0

/-- The number of decimal digits before the point of a positive ratio; zero or less when it starts after the point. -/
def decimalPoint (num den : Nat) : Int :=
  if den ≤ num then ((toString (num / den)).length : Int)
  else -((leadingZeros num den 400 0 : Nat) : Int)
where
  /-- The number of zeros between the point and the first digit. -/
  leadingZeros (num den : Nat) : Nat → Nat → Nat
    | 0, count => count
    | fuel + 1, count => if den ≤ num * 10 then count else leadingZeros (num * 10) den fuel (count + 1)

/-- The decimal `coefficient * 10 ^ power`. -/
structure Decimal where
  coefficient : Nat
  power : Int
deriving DecidableEq, Repr

/-- The two neighbours of a value on the grid of a power of ten: the decimal that is read back and nearer, if there
is one. Of two equally near, the greater is taken if `tieUp` holds or the lesser is odd. -/
def onDecimalGrid (tieUp : Bool) (interval : RoundingInterval) (exponent power : Int) : Option Decimal :=
  let quarter := exponent - 2
  -- One grid step is `step.1 / step.2` quarters.
  let ten : Nat × Nat := if 0 ≤ power then (Nat.pow 10 power.toNat, 1) else (1, Nat.pow 10 (-power).toNat)
  let step : Nat × Nat := if 0 ≤ quarter then (ten.1, ten.2 * Nat.pow 2 quarter.toNat)
    else (ten.1 * Nat.pow 2 (-quarter).toNat, ten.2)
  let below := interval.value * step.2 / step.1
  let inside (k : Nat) : Bool :=
    let position := k * step.1
    if interval.closed then interval.low * step.2 ≤ position && position ≤ interval.high * step.2
    else interval.low * step.2 < position && position < interval.high * step.2
  let twice := 2 * interval.value * step.2
  let middle := (2 * below + 1) * step.1
  let upper := middle < twice || (middle == twice && (tieUp || below % 2 == 1))
  match inside below, inside (below + 1) with
  | true, true => some ⟨if upper then below + 1 else below, power⟩
  | true, false => some ⟨below, power⟩
  | false, true => some ⟨below + 1, power⟩
  | false, false => none

/-- The shortest decimal of a positive double; seventeen digits always suffice. -/
def shortest (tieUp : Bool) (mantissa : Nat) (exponent : Int) : Decimal :=
  let size := ratio mantissa exponent
  let point := decimalPoint size.1 size.2
  let interval := roundingInterval mantissa exponent
  let found := (List.range 18).findSome? fun (digits : Nat) =>
    (onDecimalGrid tieUp interval exponent (point - digits)).filter (0 < ·.coefficient)
  found.getD ⟨0, 0⟩

end Runbook.Double

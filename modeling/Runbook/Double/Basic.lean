/-!
Double-precision numbers as exact dyadic fractions. Every finite value is a whole number of units of `2 ^ (-1074)`,
so comparison is comparison of integers, and each operation is one exact ratio rounded once.
-/

namespace Runbook

/-- A double-precision number: a signed magnitude `mantissa * 2 ^ exponent`, an infinity, or no number at all, which
has a sign as well. -/
inductive Double where
  | finite (negative : Bool) (mantissa : Nat) (exponent : Int)
  | infinite (negative : Bool)
  | notANumber (negative : Bool)
deriving DecidableEq, Repr

namespace Double

/-- The number of binary digits of a mantissa. -/
def precision : Nat := 53

/-- The exponent of the finest grid, that of the numbers next to zero. -/
def minExponent : Int := -1074

/-- The exponent of the coarsest grid, that of the greatest finite numbers. -/
def maxExponent : Int := 971

/-- A double is in normal form when its mantissa fills the precision, or lies on the finest grid. -/
def IsNormal : Double → Prop
  | finite _ mantissa exponent =>
    mantissa < Nat.pow 2 precision ∧ minExponent ≤ exponent ∧ exponent ≤ maxExponent ∧
      (Nat.pow 2 (precision - 1) ≤ mantissa ∨ exponent = minExponent)
  | _ => True

/-- A double that is a real number. -/
def isFinite : Double → Bool
  | finite .. => true
  | _ => false

/-- Zero with a sign. -/
def zero (negative : Bool) : Double := finite negative 0 minExponent

/-- The ratio `num / den` divided by a power of two, as a ratio of naturals. -/
def onGrid (num den : Nat) (exponent : Int) : Nat × Nat :=
  if 0 ≤ exponent then (num, den * Nat.pow 2 exponent.toNat) else (num * Nat.pow 2 (-exponent).toNat, den)

/-- A ratio rounded to the nearest natural number; a half goes to the even neighbour. -/
def roundHalfEven (num den : Nat) : Nat :=
  let quotient := num / den
  let twice := 2 * (num % den)
  if twice < den then quotient
  else if den < twice then quotient + 1
  else quotient + quotient % 2

/-- The exponent of the grid on which a positive ratio has a mantissa of full precision. -/
def gridExponent (num den : Nat) : Int :=
  let guess := max minExponent ((num.log2 : Int) - den.log2 - precision)
  let scaled := onGrid num den guess
  if scaled.1 / scaled.2 < Nat.pow 2 precision then guess else guess + 1

/-- The double nearest to a ratio; a tie goes to the even mantissa, and what is too great becomes an infinity. -/
def ofRatio (negative : Bool) (num den : Nat) : Double :=
  if num = 0 then zero negative
  else
    let exponent := gridExponent num den
    let scaled := onGrid num den exponent
    let mantissa := roundHalfEven scaled.1 scaled.2
    let (mantissa, exponent) := if mantissa = Nat.pow 2 precision then (Nat.pow 2 (precision - 1), exponent + 1)
      else (mantissa, exponent)
    if maxExponent < exponent then infinite negative else finite negative mantissa exponent

/-- The double nearest to an integer. -/
def ofInt (n : Int) : Double := ofRatio (n < 0) n.natAbs 1

/-- The magnitude of a finite double as a ratio. -/
def ratio (mantissa : Nat) (exponent : Int) : Nat × Nat :=
  if 0 ≤ exponent then (mantissa * Nat.pow 2 exponent.toNat, 1) else (mantissa, Nat.pow 2 (-exponent).toNat)

/-- The product of two doubles. -/
def mul : Double → Double → Double
  | finite s m e, finite t n f =>
    let first := ratio m e
    let second := ratio n f
    ofRatio (s != t) (first.1 * second.1) (first.2 * second.2)
  | infinite s, infinite t => infinite (s != t)
  | infinite s, finite t n _ | finite t n _, infinite s => if n = 0 then notANumber false else infinite (s != t)
  | _, _ => notANumber false

/-- The quotient of two doubles. -/
def div : Double → Double → Double
  | finite s m e, finite t n f =>
    if n = 0 then (if m = 0 then notANumber false else infinite (s != t))
    else
      let first := ratio m e
      let second := ratio n f
      ofRatio (s != t) (first.1 * second.2) (first.2 * second.1)
  | infinite s, finite t _ _ => infinite (s != t)
  | finite s _ _, infinite t => zero (s != t)
  | _, _ => notANumber false

/-- The double with the other sign. -/
def neg : Double → Double
  | finite s m e => finite (!s) m e
  | infinite s => infinite (!s)
  | notANumber s => notANumber (!s)

/-- The number of finest grid units in a finite double. -/
def units (negative : Bool) (mantissa : Nat) (exponent : Int) : Int :=
  let magnitude : Int := mantissa * Nat.pow 2 (exponent - minExponent).toNat
  if negative then -magnitude else magnitude

/-- Two doubles are the same number; both zeros are one number, and what is no number equals nothing. -/
def same : Double → Double → Bool
  | finite s m e, finite t n f => units s m e == units t n f
  | infinite s, infinite t => s == t
  | _, _ => false

/-- The first double is less than the second. -/
def less : Double → Double → Bool
  | finite s m e, finite t n f => units s m e < units t n f
  | finite .., infinite t => !t
  | infinite s, finite .. => s
  | infinite s, infinite t => s && !t
  | _, _ => false

/-- The first double is less than the second or the same number. -/
def atMost (first second : Double) : Bool := less first second || same first second

/-- The integer that a double is, if it is one. -/
def integer? : Double → Option Int
  | finite s m e =>
    let size := ratio m e
    if size.1 % size.2 = 0 then
      let magnitude : Int := size.1 / size.2
      some (if s then -magnitude else magnitude)
    else none
  | _ => none

/-- The natural number below a double, held between zero and a greatest value; no number counts as zero. -/
def floorWithin (greatest : Nat) : Double → Nat
  | finite true .. => 0
  | finite false m e => let size := ratio m e; min greatest (size.1 / size.2)
  | infinite negative => if negative then 0 else greatest
  | notANumber _ => 0

end Double
end Runbook

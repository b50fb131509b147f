import Runbook.Double.Decimal
import Runbook.Json.Basic

/-!
Numbers of JSON text. A number without fraction and exponent that fits 64 bits stays an integer. Every other number
becomes a double: its leading digits are taken as a natural below `2 ^ 64`, which is scaled by a power of ten in steps
that each round once.
-/

namespace Runbook.Json

open Runbook.Text

/-- The digits of a decimal that are kept: a natural below `2 ^ 64` and the power of ten to scale it with. -/
structure Significand where
  value : Nat := 0
  power : Int := 0
  /-- A digit was left out, so all further ones are left out too. -/
  full : Bool := false

/-- A digit fits behind the kept digits. -/
def Significand.fits (kept : Significand) (c : Char) : Bool :=
  !kept.full && kept.value * 10 + digitValue c < Nat.pow 2 64

/-- Each digit before the point is kept if it fits, and otherwise raises the power. -/
def Significand.pushWhole (kept : Significand) (c : Char) : Significand :=
  if kept.fits c then { kept with value := kept.value * 10 + digitValue c }
  else { kept with power := kept.power + 1, full := true }

/-- Each digit after the point is kept if it fits, and lowers the power; otherwise it is dropped. -/
def Significand.pushFraction (kept : Significand) (c : Char) : Significand :=
  if kept.fits c then { kept with value := kept.value * 10 + digitValue c, power := kept.power - 1 }
  else { kept with full := true }

/-- A double divided by `10 ^ 308` until the rest of the power is in reach. -/
def lowered (value : Double) : Nat → Nat → Double
  | 0, power => Double.div value (Double.ofDecimal false 1 power)
  | steps + 1, power =>
    if power ≤ 308 then Double.div value (Double.ofDecimal false 1 power)
    else if value.same (Double.zero false) then value
    else lowered (Double.div value (Double.ofDecimal false 1 308)) steps (power - 308)

/-- A natural scaled by a power of ten. What is too great for a double has no value. -/
def scaled? (significand : Nat) (power : Int) : Option Double :=
  let start := Double.ofInt significand
  if 0 ≤ power then
    if 308 < power then (if significand = 0 then some start else none)
    else
      let product := Double.mul start (Double.ofDecimal false 1 power)
      if product.isFinite then some product else none
  else some (lowered start 4 (-power).toNat)

/-- The signed double of kept digits under a further power of ten. -/
def Significand.double? (kept : Significand) (negative : Bool) (power : Int) : Option Double :=
  (scaled? kept.value (kept.power + power)).map fun x => if negative then x.neg else x

/-- The number at the front of a text, and the rest of the text. -/
def readNumber (text : List Char) : Option (Json × List Char) := do
  let (negative, body) := match text with
    | '-' :: rest => (true, rest)
    | _ => (false, text)
  let whole := body.takeWhile isDigit
  let rest := body.dropWhile isDigit
  if whole.isEmpty || (whole.head? == some '0' && 1 < whole.length) then none
  let kept := whole.foldl Significand.pushWhole {}
  let (fraction, rest) ← match rest with
    | '.' :: more =>
      let digits := more.takeWhile isDigit
      if digits.isEmpty then none else some (digits, more.dropWhile isDigit)
    | _ => some ([], rest)
  -- The digits before the point that were left out count as zeros again once a point follows.
  let kept := if fraction.isEmpty then kept else fraction.foldl Significand.pushFraction { kept with full := false }
  match rest with
  | mark :: more =>
    if mark == 'e' || mark == 'E' then
      let (sign, digits) := match more with
        | '+' :: after => ([], after)
        | '-' :: after => (['-'], after)
        | _ => ([], more)
      let power ← Double.exponent? (sign ++ digits.takeWhile isDigit)
      let value ← kept.double? negative power
      some (.real value, digits.dropWhile isDigit)
    else plain negative whole fraction kept rest
  | [] => plain negative whole fraction kept rest
where
  /-- A number without exponent: an integer if it has no fraction and fits 64 bits. -/
  plain (negative : Bool) (whole fraction : List Char) (kept : Significand) (rest : List Char) :
      Option (Json × List Char) := do
    let size : Int := decimalValue whole
    let integer : Int := if negative then -size else size
    if fraction.isEmpty && leastInt ≤ integer && integer ≤ greatestInt && !(negative && integer == 0) then
      some (.int integer, rest)
    else
      let value ← kept.double? negative 0
      some (.real value, rest)

end Runbook.Json

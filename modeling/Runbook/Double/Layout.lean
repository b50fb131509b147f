import Runbook.Double.Shortest

/-!
How the digits of a double are written. A layout fixes where positional notation ends, how an exponent is marked and
which way a tie between two shortest decimals goes.
-/

namespace Runbook.Double

/-- The choices that a written form of doubles makes. -/
structure Layout where
  /-- The least number of zeros that may not follow the point before the first digit, as a place of the point. -/
  leastPoint : Int
  /-- The greatest number of digits before the point in positional notation. -/
  greatestPoint : Int
  /-- An exponent that is not negative has a plus sign. -/
  plus : Bool
  /-- A tie between two shortest decimals goes to the greater one. -/
  tieUp : Bool
  infinity : String
  notANumber : String

/-- JSON text is positional from `0.00001` to below `10 ^ 16`, and its exponents have a sign. -/
def Layout.json : Layout := ⟨-4, 16, true, false, "null", "null"⟩

/-- YAML text is positional in the same range as JSON text, and positive exponents have no sign. -/
def Layout.yaml : Layout := ⟨-4, 16, false, false, ".inf", ".nan"⟩

/-- A plain listing is positional from `0.0001` to below `10 ^ 16`, and positive exponents have no sign. -/
def Layout.plain : Layout := ⟨-3, 16, false, true, "inf", "NaN"⟩

/-- The text of a positive decimal whose coefficient does not end in zero. -/
def Layout.decimal (layout : Layout) (value : Decimal) : String :=
  let digits := toString value.coefficient
  let point : Int := digits.length + value.power
  if layout.leastPoint ≤ point && point ≤ layout.greatestPoint then
    if point ≤ 0 then "0." ++ "".pushn '0' (-point).toNat ++ digits
    else if 0 ≤ value.power then digits ++ "".pushn '0' value.power.toNat ++ ".0"
    else
      let cut := point.toNat
      String.ofList (digits.toList.take cut) ++ "." ++ String.ofList (digits.toList.drop cut)
  else
    let fraction := String.ofList (digits.toList.drop 1)
    let lead := String.ofList (digits.toList.take 1)
    let exponent := point - 1
    lead ++ (if fraction.isEmpty then "" else "." ++ fraction) ++ "e" ++
      (if layout.plus && 0 ≤ exponent then "+" else "") ++ toString exponent

/-- A decimal without zeros at the end of its coefficient. -/
def Decimal.reduced (value : Decimal) : Decimal :=
  let zeros := ((toString value.coefficient).toList.reverse.takeWhile (· == '0')).length
  ⟨value.coefficient / Nat.pow 10 zeros, value.power + zeros⟩

/-- The text of a double. -/
def Layout.text (layout : Layout) : Double → String
  | .finite negative mantissa exponent =>
    (if negative then "-" else "") ++
      (if mantissa = 0 then "0.0" else layout.decimal (shortest layout.tieUp mantissa exponent).reduced)
  | .infinite negative => (if negative && layout.infinity != "null" then "-" else "") ++ layout.infinity
  | .notANumber _ => layout.notANumber

end Runbook.Double

import Runbook.Double.Decimal
import Runbook.Text.Blank

/-!
Durations: a decimal number of milliseconds, or of seconds after the unit `s`.
-/

namespace Runbook.Duration

open Runbook.Text

/-- A unit at the end of a duration, as the number of milliseconds it stands for. -/
def unit? (text : List Char) : Option Nat :=
  match text with
  | [] | ['m', 's'] => some 1
  | ['s'] => some 1000
  | _ => none

/-- The milliseconds that a text writes: digits, an optional fraction, and an optional unit after blanks. Seconds are
scaled by one rounded product. -/
def millis? (text : List Char) : Option Double := do
  let inner := trim text
  let whole := inner.takeWhile isDigit
  let rest := inner.dropWhile isDigit
  if whole.isEmpty then none
  let (number, rest) ← match rest with
    | '.' :: more =>
      let fraction := more.takeWhile isDigit
      if fraction.isEmpty then none else some (whole ++ '.' :: fraction, more.dropWhile isDigit)
    | _ => some (whole, rest)
  let value ← Double.magnitude? false number
  let scale ← unit? (rest.dropWhile isBlank)
  return if scale = 1 then value else value.mul (Double.ofInt scale)

end Runbook.Duration

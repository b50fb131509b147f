import Runbook.Double.Basic
import Runbook.Text.Ascii

/-!
Reading decimal numbers: the nearest double to a decimal fraction, and the grammar of numbers in text.
-/

namespace Runbook.Double

open Runbook.Text

/-- The double nearest to `coefficient * 10 ^ power`. Powers that lead past the range of doubles are decided without
computing them. -/
def ofDecimal (negative : Bool) (coefficient : Nat) (power : Int) : Double :=
  if coefficient = 0 then zero negative
  else if 310 < power then infinite negative
  else if power + coefficient.log2 < -400 then zero negative
  else if 0 ≤ power then ofRatio negative (coefficient * Nat.pow 10 power.toNat) 1
  else ofRatio negative coefficient (Nat.pow 10 (-power).toNat)

/-- The decimal exponent that a text writes after its mark: an optional sign and at least one digit. -/
def exponent? (text : List Char) : Option Int :=
  let (negative, digits) := match text with
    | '+' :: rest => (false, rest)
    | '-' :: rest => (true, rest)
    | _ => (false, text)
  if !digits.isEmpty && digits.all isDigit then
    let size : Int := decimalValue digits
    some (if negative then -size else size)
  else none

/-- The double that an unsigned decimal writes: digits with at most one point among them, and an optional exponent
after `e` or `E`. -/
def magnitude? (negative : Bool) (text : List Char) : Option Double :=
  let whole := text.takeWhile isDigit
  let (fraction, rest) := match text.dropWhile isDigit with
    | '.' :: rest => (rest.takeWhile isDigit, rest.dropWhile isDigit)
    | rest => ([], rest)
  if whole.isEmpty && fraction.isEmpty then none
  else
    let value (power : Int) := ofDecimal negative (decimalValue (whole ++ fraction)) (power - fraction.length)
    match rest with
    | [] => some (value 0)
    | mark :: digits => if mark == 'e' || mark == 'E' then (exponent? digits).map value else none

/-- The double that a text writes: an optional sign before a decimal, `inf`, `infinity` or `nan`, the words in any
case. -/
def read? (text : List Char) : Option Double :=
  let (negative, body) := match text with
    | '+' :: rest => (false, rest)
    | '-' :: rest => (true, rest)
    | _ => (false, text)
  let word := String.ofList (body.map lowerChar)
  if word == "inf" || word == "infinity" then some (infinite negative)
  else if word == "nan" then some (notANumber negative)
  else magnitude? negative body

end Runbook.Double

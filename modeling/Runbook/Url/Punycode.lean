import Runbook.Text.Ascii

/-!
Punycode: texts of all scripts in letters, digits and hyphens of ASCII. The ASCII characters come first; the others
follow in increasing order, each as the number of places that it lies behind the one before.
-/

namespace Runbook.Url.Punycode

open Runbook.Text

/-- The value of a digit of base 36: letters come before decimal digits. -/
def digit? (c : Char) : Option Nat :=
  if isLetter c then some ((lowerChar c).toNat - 'a'.toNat)
  else if isDigit c then some (digitValue c + 26)
  else none

/-- The digit at a position ends its number when it is below this threshold, which lies between 1 and 26. -/
def threshold (bias position : Nat) : Nat := min (max (position - bias) 1) 26

/-- The first number of the digits, and the digits after it. The weight is that of the first digit. -/
def takeNumber (bias : Nat) : Nat → Nat → List Nat → Option (Nat × List Nat)
  | _, _, [] => none
  | position, weight, digit :: rest =>
    let limit := threshold bias position
    if digit < limit then some (digit * weight, rest)
    else
      (takeNumber bias (position + 36) (weight * (36 - limit)) rest).map fun taken =>
        (digit * weight + taken.1, taken.2)

/-- The bias that suits numbers of a size. -/
def biasOf (size : Nat) : Nat :=
  if 455 < size then 36 + biasOf (size / 35) else 36 * size / (size + 38)
termination_by size
decreasing_by omega

/-- The bias after a number, when the text has so many characters; the first number is far greater than the others. -/
def nextBias (first : Bool) (number count : Nat) : Nat :=
  let size := if first then number / 700 else number / 2
  biasOf (size + size / count)

/-- The text with the characters that digits add to it. The code is that of the last character added and the place is
the one behind it. The fuel bounds the number of digits. -/
def addRest (first : Bool) (bias code place : Nat) (text : List Char) : Nat → List Nat → Option (List Char)
  | _, [] => some text
  | 0, _ => none
  | fuel + 1, digits => do
    let (number, rest) ← takeNumber bias 36 1 digits
    let count := text.length + 1
    let code := code + (place + number) / count
    let place := (place + number) % count
    if !code.isValidChar then none
    addRest false (nextBias first number count) code (place + 1) (text.insertIdx place (Char.ofNat code)) fuel rest

/-- The text that an encoded text stands for. -/
def decode? (encoded : List Char) : Option (List Char) := do
  let tail := (encoded.reverse.takeWhile (· != '-')).reverse
  let basic := encoded.take (encoded.length - tail.length - 1)
  let rest := if basic.isEmpty then encoded else tail
  let digits ← rest.mapM digit?
  addRest true 72 128 0 basic digits.length digits

end Runbook.Url.Punycode

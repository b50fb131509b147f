import Runbook.Text.Blank
import Runbook.Text.Pieces
import Runbook.Time.Instant

/-!
Reading instants. The strict form has fixed widths; the lenient form also takes blanks, single digits, signed years
and the zone name UTC, as people write them.
-/

namespace Runbook.Time.Instant

open Runbook.Text

/-- Between `least` and `most` digits at the front of a text, as a number, and the rest. -/
def takeNumber (least most : Nat) (text : List Char) : Option (Nat × List Char) :=
  let digits := (text.take most).takeWhile isDigit
  if digits.length < least then none else some (decimalValue digits, text.drop digits.length)

/-- The fraction of a second after its point, in nanoseconds; digits beyond the ninth are dropped. -/
def takeFraction (text : List Char) : Option (Nat × List Char) :=
  let digits := text.takeWhile isDigit
  let kept := digits.take 9
  if digits.isEmpty then none
  else some (decimalValue kept * Nat.pow 10 (9 - kept.length), text.drop digits.length)

/-- The fraction of a second if a point stands at the front. -/
def takeFraction? : List Char → Option (Nat × List Char)
  | '.' :: rest => takeFraction rest
  | text => some (0, text)

/-- An offset from universal time in seconds: `Z`, or a sign, two digits of hours, what `between` consumes, and two
digits of minutes. -/
def takeOffset (between : List Char → Option (List Char)) (text : List Char) : Option (Int × List Char) :=
  match text with
  | 'Z' :: rest | 'z' :: rest => some (0, rest)
  | sign :: rest => do
    let negative ← if sign == '+' then some false
      else if sign == '-' || sign == '\u2212' then some true
      else none
    let (hours, rest) ← takeNumber 2 2 rest
    let rest ← between rest
    let (minutes, rest) ← takeNumber 2 2 rest
    if 60 ≤ minutes then none
    let size : Int := hours * 3600 + minutes * 60
    some (if negative then -size else size, rest)
  | [] => none

/-- The instant of a date and a time of day at an offset, if all parts are within their ranges. The second 60 is the
leap second. -/
def ofParts? (date : Date) (hour minute second nanos : Nat) (offset : Int) : Option Instant :=
  if date.isDay && hour < 24 && minute < 60 && second ≤ 60 && offset.natAbs < 86400 then
    let (second, nanos) := if second = 60 then (59, nanos + nanosPerSecond) else (second, nanos)
    some ⟨date.toDays * daySeconds + (hour * 3600 + minute * 60 + second : Nat) - offset, nanos⟩
  else none

/-- The separator between date and time of day. -/
def isDateTimeMark (c : Char) : Bool := c == 'T' || c == 't' || c == ' '

/-- The instant that a text writes in the strict form. -/
def readStrict? (text : List Char) : Option Instant := do
  let (year, rest) ← takeNumber 4 4 text
  let (month, rest) ← takeNumber 2 2 (← afterFront? ['-'] rest)
  let (day, rest) ← takeNumber 2 2 (← afterFront? ['-'] rest)
  let mark ← rest.head?
  if !isDateTimeMark mark then none
  let (hour, rest) ← takeNumber 2 2 (rest.drop 1)
  let (minute, rest) ← takeNumber 2 2 (← afterFront? [':'] rest)
  let (second, rest) ← takeNumber 2 2 (← afterFront? [':'] rest)
  let (nanos, rest) ← takeFraction? rest
  let (offset, rest) ← takeOffset (afterFront? [':']) rest
  if rest.isEmpty then ofParts? ⟨year, month, day⟩ hour minute second nanos offset else none

/-- A year with an optional sign; four digits at most unless it has one. -/
def takeYear (text : List Char) : Option (Int × List Char) :=
  match text with
  | '-' :: rest => (takeNumber 1 rest.length rest).map fun read => (-(read.1 : Int), read.2)
  | '+' :: rest => (takeNumber 1 rest.length rest).map fun read => ((read.1 : Int), read.2)
  | _ => (takeNumber 1 4 text).map fun read => ((read.1 : Int), read.2)

/-- The greatest distance of a year from the year zero. -/
def yearLimit : Nat := 262142

/-- The instant that a text writes in the lenient form. -/
def read? (text : List Char) : Option Instant := do
  let skip := dropFront isBlank
  let (year, rest) ← takeYear (skip text)
  let (month, rest) ← takeNumber 1 2 (skip (← afterFront? ['-'] (skip rest)))
  let (day, rest) ← takeNumber 1 2 (skip (← afterFront? ['-'] (skip rest)))
  let mark ← rest.head?
  if !isDateTimeMark mark then none
  let (hour, rest) ← takeNumber 1 2 (skip (rest.drop 1))
  let (minute, rest) ← takeNumber 1 2 (skip (← afterFront? [':'] (skip rest)))
  let (second, rest) ← takeNumber 1 2 (skip (← afterFront? [':'] (skip rest)))
  let (nanos, rest) ← takeFraction? rest
  let rest := skip rest
  let (offset, rest) ← if (rest.take 3).map upperChar == ['U', 'T', 'C'] then some (0, rest.drop 3)
    else takeOffset (fun text => some (dropFront (fun c => c == ':' || isBlank c) text)) rest
  if rest.all isBlank && year.natAbs ≤ yearLimit then ofParts? ⟨year, month, day⟩ hour minute second nanos offset
  else none

end Runbook.Time.Instant

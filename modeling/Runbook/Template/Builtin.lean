import Runbook.Text.Ascii
import Runbook.Time.Instant

/-!
Generated values: times, random numbers, random texts and unique identifiers. What they are drawn from is given, so
that generation is a function.
-/

namespace Runbook.Template

open Runbook.Text

/-- What generated values are drawn from: the time and a number. -/
structure Draws where
  now : Time.Instant := ⟨0, 0⟩
  seed : Nat := 0
deriving Inhabited

namespace Draws

/-- A number that follows from another one with no visible pattern. -/
def scramble (n : Nat) : Nat :=
  let size := Nat.pow 2 64
  let a := (n + 0x9e3779b97f4a7c15) % size
  let b := ((a ^^^ (a >>> 30)) * 0xbf58476d1ce4e5b9) % size
  let c := ((b ^^^ (b >>> 27)) * 0x94d049bb133111eb) % size
  c ^^^ (c >>> 31)

/-- The draws for the part of a task with a number. -/
def part (draws : Draws) (number : Nat) : Draws :=
  { draws with seed := scramble (draws.seed * 31 + number) }

/-- The drawn number with an index. -/
def number (draws : Draws) (index : Nat) : Nat := scramble (draws.seed + scramble index)

end Draws

/-- Letters and digits, from which random texts are made. -/
def alphabet : List Char :=
  "ABCDEFGHIJKLMNOPQRSTUVWXYZabcdefghijklmnopqrstuvwxyz0123456789".toList

/-- A hexadecimal digit of a drawn number. -/
def hexDigit (draws : Draws) (index : Nat) : Char :=
  (Nat.toDigits 16 (draws.number index % 16)).headD '0'

/-- A random identifier of version 4 in lower case. -/
def uuid (draws : Draws) : String :=
  let digits (start count : Nat) : List Char := (List.range count).map fun k => hexDigit draws (start + k)
  let variant := (Nat.toDigits 16 (8 + draws.number 99 % 4)).headD '8'
  String.ofList <| digits 0 8 ++ '-' :: digits 8 4 ++ '-' :: '4' :: digits 12 3 ++ '-' :: variant :: digits 15 3 ++
    '-' :: digits 18 12

/-- The milliseconds of an instant since the start of 1970. -/
def unixMillis (instant : Time.Instant) : Int := instant.seconds * 1000 + instant.millis

/-- The instant to the millisecond. -/
def isoMillis (instant : Time.Instant) : String :=
  instant.dateText "-" ++ "T" ++ instant.timeText ":" ++ "." ++ padded 3 instant.millis ++ "Z"

/-- The generated value of a builtin name. -/
def builtin? (draws : Draws) (name : String) : Option String :=
  match name with
  | "$timestamp" => some (toString draws.now.seconds)
  | "$timestampMs" => some (toString (unixMillis draws.now))
  | "$isoTimestamp" => some (isoMillis draws.now)
  | "$randomInt" => some (toString (draws.number 0 % 10000))
  | "$randomString" =>
    some (String.ofList ((List.range 8).map fun k => alphabet.getD (draws.number k % alphabet.length) 'A'))
  | "$uuid" => some (uuid draws)
  | _ => none

/-- A text has the lengths of runs that separators leave, each character of a class. -/
def isGrouped (lengths : List Nat) (p : Char → Bool) (text : String) : Bool :=
  let groups := (text.split (· == '-')).toList.map fun part => part.toString.toList
  groups.map List.length == lengths && groups.all (·.all p)

/-- A text has the form that the values of a builtin name have. -/
def hasBuiltinForm (name text : String) : Bool :=
  let digits := text.toList.all isDigit
  match name with
  | "$timestamp" => digits && text.length == 10
  | "$timestampMs" => digits && text.length == 13
  | "$isoTimestamp" =>
    text.toList.map (fun c => if isDigit c then '0' else c) == "0000-00-00T00:00:00.000Z".toList
  | "$randomInt" => digits && !text.isEmpty && decimalValue text.toList < 10000
  | "$randomString" => text.length == 8 && text.toList.all fun c => isLetter c || isDigit c
  | "$uuid" => isGrouped [8, 4, 4, 4, 12] (fun c => isHexDigit c && !isUpper c) text && text.toList[14]? == some '4'
  | _ => false

end Runbook.Template

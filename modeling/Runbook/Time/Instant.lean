import Runbook.Text.Ascii
import Runbook.Time.Calendar

/-!
Instants of universal time to the nanosecond, and their written forms.
-/

namespace Runbook.Time

open Runbook.Text

/-- An instant: seconds since the start of 1970, and nanoseconds within the second. A leap second is the second before
it with a further `10 ^ 9` nanoseconds. -/
structure Instant where
  seconds : Int
  nanos : Nat
deriving DecidableEq, Repr, Inhabited

namespace Instant

/-- The nanoseconds of a second. -/
def nanosPerSecond : Nat := 1000000000

/-- The seconds of a day. -/
def daySeconds : Int := 86400

/-- The instant some milliseconds later. -/
def after (instant : Instant) (millis : Nat) : Instant :=
  let nanos := instant.nanos + millis * 1000000
  ⟨instant.seconds + nanos / nanosPerSecond, nanos % nanosPerSecond⟩

/-- The date of an instant. -/
def date (instant : Instant) : Date := Date.ofDays (instant.seconds.fdiv daySeconds)

/-- The second of the day of an instant. -/
def secondOfDay (instant : Instant) : Nat := (instant.seconds.fmod daySeconds).toNat

/-- The year in at least four digits; a year that needs more, or lies before the year zero, has a sign. -/
def yearText (year : Int) : String :=
  if 0 ≤ year && year ≤ 9999 then padded 4 year.toNat
  else (if year < 0 then "-" else "+") ++ padded 4 year.natAbs

/-- The date as `YYYY-MM-DD`, with the given separator between its parts. -/
def dateText (separator : String) (instant : Instant) : String :=
  let date := instant.date
  yearText date.year ++ separator ++ padded 2 date.month ++ separator ++ padded 2 date.day

/-- The time of day as `HH:MM:SS`, with the given separator; a leap second is the second 60. -/
def timeText (separator : String) (instant : Instant) : String :=
  let second := instant.secondOfDay
  padded 2 (second / 3600) ++ separator ++ padded 2 (second / 60 % 60) ++ separator ++
    padded 2 (second % 60 + instant.nanos / nanosPerSecond)

/-- The fraction of the second in as few groups of three digits as hold it exactly. -/
def fractionText (instant : Instant) : String :=
  let nanos := instant.nanos % nanosPerSecond
  if nanos = 0 then ""
  else if nanos % 1000000 = 0 then "." ++ padded 3 (nanos / 1000000)
  else if nanos % 1000 = 0 then "." ++ padded 6 (nanos / 1000)
  else "." ++ padded 9 nanos

/-- The instant as `YYYY-MM-DDTHH:MM:SS`, a fraction if there is one, and the zone text. -/
def withZone (zone : String) (instant : Instant) : String :=
  instant.dateText "-" ++ "T" ++ instant.timeText ":" ++ instant.fractionText ++ zone

/-- The written form of an instant in documents. -/
def text (instant : Instant) : String := instant.withZone "Z"

/-- The milliseconds of the second. -/
def millis (instant : Instant) : Nat := instant.nanos % nanosPerSecond / 1000000

/-- The instant as `YYYYMMDD-HHMMSS-mmm`. -/
def stamp (instant : Instant) : String :=
  instant.dateText "" ++ "-" ++ instant.timeText "" ++ "-" ++ padded 3 instant.millis

/-- The milliseconds from one instant to a later one; none when it is not later. A leap second between two times of
one day counts. -/
def millisUntil (start finish : Instant) : Nat :=
  let leap : Int :=
    if start.secondOfDay < finish.secondOfDay && nanosPerSecond ≤ start.nanos then 1
    else if finish.secondOfDay < start.secondOfDay && nanosPerSecond ≤ finish.nanos then -1
    else 0
  let seconds := finish.seconds - start.seconds + leap
  ((seconds * nanosPerSecond + (finish.nanos - start.nanos)) / 1000000).toNat

end Instant
end Runbook.Time

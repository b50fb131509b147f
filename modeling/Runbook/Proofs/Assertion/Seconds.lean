import Runbook.Proofs.Assertion.Threshold
import Runbook.Proofs.Double.Thousandth
import Runbook.Proofs.Script.Sections

/-!
Durations in seconds. A number of seconds with digits behind the point is read as a double and scaled to milliseconds,
which is off by the drift of the number: where there is none, options and assertions take the milliseconds exactly.
-/

namespace Runbook

open Runbook.Text

namespace Duration

/-- A number of seconds in writing: up to nine digits, and one to three digits behind the point. -/
structure Seconds where
  whole : List Char
  fraction : List Char
  digits : ∀ c ∈ whole ++ fraction, isDigit c = true
  filled : whole ≠ []
  short : whole.length ≤ 9
  pointed : fraction ≠ []
  places : fraction.length ≤ 3

namespace Seconds

variable (seconds : Seconds)

/-- The text of the seconds with their unit. -/
def text : List Char := seconds.whole ++ '.' :: (seconds.fraction ++ ['s'])

/-- The milliseconds that are written. -/
def millis : Nat :=
  decimalValue seconds.whole * 1000 + decimalValue seconds.fraction * Nat.pow 10 (3 - seconds.fraction.length)

theorem isSolid_text : IsSolid seconds.text := by
  obtain ⟨front, behind⟩ := List.forall_mem_append.mp seconds.digits
  refine ⟨by simp [text], fun c member => ?_⟩
  simp only [text, List.mem_append, List.mem_cons, List.not_mem_nil, or_false] at member
  rcases member with digit | rfl | digit | rfl
  · exact isBlank_eq_false_of_isDigit (front c digit)
  · decide
  · exact isBlank_eq_false_of_isDigit (behind c digit)
  · decide

theorem millis_lt : seconds.millis < Nat.pow 2 40 := by
  obtain ⟨front, behind⟩ := List.forall_mem_append.mp seconds.digits
  have ones : decimalValue seconds.whole < Nat.pow 10 9 :=
    (decimalValue_lt front).trans_le (Nat.pow_le_pow_right (by decide) seconds.short)
  have thousandths : decimalValue seconds.fraction * Nat.pow 10 (3 - seconds.fraction.length) < 1000 :=
    calc decimalValue seconds.fraction * Nat.pow 10 (3 - seconds.fraction.length)
      _ < Nat.pow 10 seconds.fraction.length * Nat.pow 10 (3 - seconds.fraction.length) :=
        Nat.mul_lt_mul_of_pos_right (decimalValue_lt behind) (Nat.pow_pos (by decide))
      _ = Nat.pow 10 3 := by
        rw [Nat.pow_eq, Nat.pow_eq, ← Nat.pow_add, Nat.add_sub_of_le seconds.places, Nat.pow_eq]
  have bounds : Nat.pow 10 9 = 1000000000 ∧ Nat.pow 2 40 = 1099511627776 := ⟨rfl, rfl⟩
  unfold millis
  omega

/-- The seconds are a decimal of so many thousandths. -/
theorem cast_decimalValue : (decimalValue (seconds.whole ++ seconds.fraction) : ℚ) *
    10 ^ (-(seconds.fraction.length : Int)) = seconds.millis / 1000 := by
  have thousand : (1000 : ℚ) = 10 ^ seconds.fraction.length * 10 ^ (3 - seconds.fraction.length) := by
    rw [← pow_add, Nat.add_sub_of_le seconds.places]
    norm_num
  rw [decimalValue_append, millis, zpow_neg, zpow_natCast]
  push_cast [Nat.pow_eq]
  rw [thousand]
  field_simp

/-- A number of seconds is read as its decimal, scaled with a thousand. -/
theorem millis?_text : millis? seconds.text = some
    ((Double.ofDecimal false (decimalValue (seconds.whole ++ seconds.fraction)) (-(seconds.fraction.length : Int))).mul
      (Double.ofInt 1000)) := by
  obtain ⟨front, behind⟩ := List.forall_mem_append.mp seconds.digits
  have trimmed : trim seconds.text = seconds.text := seconds.isSolid_text.isTrimmed
  have point : ∀ c ∈ ('.' :: (seconds.fraction ++ ['s'])).head?, isDigit c = false := by simp [isDigit]
  have unit : ∀ c ∈ ['s'].head?, isDigit c = false := by
    rintro _ ⟨⟩
    decide
  have some : seconds.whole.isEmpty = false := List.isEmpty_eq_false_iff.mpr seconds.filled
  have more : seconds.fraction.isEmpty = false := List.isEmpty_eq_false_iff.mpr seconds.pointed
  have scale : unit? (['s'].dropWhile isBlank) = .some 1000 := by decide
  unfold millis?
  simp only [trimmed]
  rw [text, takeWhile_run front point, dropWhile_run front point]
  simp only [takeWhile_run behind unit, dropWhile_run behind unit, some, more, Bool.false_eq_true, if_false,
    Option.bind_eq_bind, Option.bind_some, Double.magnitude?_point seconds.filled seconds.digits, scale]
  rfl

/-- The milliseconds that an option keeps of the seconds. -/
def kept : Nat := if Double.drift seconds.millis = -1 then seconds.millis - 1 else seconds.millis

/-- The double that is read stands for the milliseconds, but for their drift. -/
theorem exists_isScaled : ∃ size, millis? seconds.text = some size ∧ Double.IsScaled seconds.millis size :=
  ⟨_, seconds.millis?_text, Double.isScaled_mul seconds.millis_lt seconds.cast_decimalValue⟩

end Seconds
end Duration

open Duration

namespace Script

variable (seconds : Seconds)

/-- An option takes the whole milliseconds below the double that is read. -/
theorem map_millis?_seconds (setting : Nat → Setting) :
    ((millis? (String.ofList seconds.text).toList).map fun size => setting (size.floorWithin greatestMillis)) =
      some (setting seconds.kept) := by
  obtain ⟨size, read, scaled⟩ := seconds.exists_isScaled
  have small : seconds.kept ≤ greatestMillis := by
    have below := seconds.millis_lt
    have bounds : Nat.pow 2 40 = 1099511627776 ∧ greatestMillis = 18446744073709551615 := ⟨rfl, rfl⟩
    unfold Seconds.kept
    split <;> omega
  rw [String.toList_ofList, read, Option.map_some, scaled.floorWithin, ← Seconds.kept, Nat.min_eq_right small]

theorem ofPair?_seconds :
    Setting.ofPair? "timeout" (String.ofList seconds.text) = some (.timeout seconds.kept) ∧
    Setting.ofPair? "retry_wait" (String.ofList seconds.text) = some (.retryWait seconds.kept) := by
  have lowered : lower "timeout" = "timeout" ∧ lower "retry_wait" = "retry_wait" := by decide
  unfold Setting.ofPair?
  rw [lowered.1, lowered.2]
  exact ⟨map_millis?_seconds seconds .timeout, map_millis?_seconds seconds .retryWait⟩

end Script

namespace Assertion

variable (seconds : Seconds)

/-- A duration equals a number of seconds only where this has no drift, and then the milliseconds that are written. -/
theorem exists_parse_seconds : ∃ assertion, parse (lineOf "duration".toList .equal seconds.text) = .ok assertion ∧
    ∀ (draws : Template.Draws) (scope : Scope) (facts : Facts), facts.millis < Nat.pow 2 64 →
      ((evaluate draws scope (some facts) assertion).pass = true ↔
        Double.drift seconds.millis = 0 ∧ facts.millis = seconds.millis) := by
  obtain ⟨size, read, scaled⟩ := seconds.exists_isScaled
  have solid := seconds.isSolid_text
  have trimmed : trim seconds.text = seconds.text := solid.isTrimmed
  have parts : takeParts (lineOf "duration".toList .equal seconds.text).toList =
      some ("duration".toList, .equal, trim seconds.text) := takeParts_duration rfl (solid.not_mem (by decide))
  rw [trimmed] at parts
  refine ⟨_, parse_of_takeParts parts rfl solid.ne_nil rfl (readLiteral_millis solid.isTrimmed read), ?_⟩
  intro draws scope facts below
  have isNumber : (Double.ofInt facts.millis).IsNumber := Double.isNumber_ofRatio _ _ _
  rw [← scaled.same_iff below, Double.same_iff isNumber (.of_isFinite scaled.isFinite)]
  exact evaluate_number rfl rfl scaled.isFinite scaled.onGrid rfl rfl isNumber

/-- A number of seconds is read as the milliseconds that are written, plus their drift in units of the last place. So an
option takes these milliseconds, or one less where the drift goes down; and a duration equals the seconds where there is
no drift and it is these milliseconds, and never where there is a drift. -/
theorem seconds_scaled (seconds : Seconds) :
    (∃ size, millis? seconds.text = some size ∧ size.isFinite = true ∧ size.toRat =
      seconds.millis + Double.drift seconds.millis * 2 ^ (-((52 - seconds.millis.log2 : Nat) : Int))) ∧
    (∀ draft : Script.Draft, draft.place = .options →
      draft.next (Script.pairLine "timeout" (String.ofList seconds.text)) =
        .ok { draft with options := { draft.options with timeout := some seconds.kept } } ∧
      draft.next (Script.pairLine "retry_wait" (String.ofList seconds.text)) =
        .ok { draft with options := { draft.options with retryWait := seconds.kept } }) ∧
    ∃ assertion, parse (lineOf "duration".toList .equal seconds.text) = .ok assertion ∧
      ∀ (draws : Template.Draws) (scope : Scope) (facts : Facts), facts.millis < Nat.pow 2 64 →
        ((evaluate draws scope (some facts) assertion).pass = true ↔
          Double.drift seconds.millis = 0 ∧ facts.millis = seconds.millis) := by
  obtain ⟨size, read, scaled⟩ := seconds.exists_isScaled
  obtain ⟨timeout, wait⟩ := Script.ofPair?_seconds seconds
  have trimmed : IsTrimmed (String.ofList seconds.text).toList := by
    rw [String.toList_ofList]
    exact seconds.isSolid_text.isTrimmed
  refine ⟨⟨size, read, scaled.isFinite, scaled.toRat⟩, fun draft place => ⟨?_, ?_⟩, exists_parse_seconds seconds⟩
  · exact draft.next_setting place (Script.isKey_of_setting _ (by decide)) trimmed timeout
  · exact draft.next_setting place (Script.isKey_of_setting _ (by decide)) trimmed wait

/-- A second and a thousandth of one. -/
def overSecond : Seconds where
  whole := "1".toList
  fraction := "001".toList
  digits := List.all_eq_true.mp (by decide)
  filled := by decide
  short := by decide
  pointed := by decide
  places := by decide

/-- `1.001s` is read as a little less than its 1001 milliseconds, so an option takes 1000, and no duration equals it. -/
theorem overSecond_drifts :
    overSecond.text = "1.001s".toList ∧ overSecond.millis = 1001 ∧ Double.drift 1001 = -1 ∧
    ({ place := .options } : Script.Draft).place = .options ∧
    ({ place := .options } : Script.Draft).next "timeout: 1.001s" =
      .ok { place := .options, options := { timeout := some 1000 } } ∧
    (1001 : Nat) < Nat.pow 2 64 ∧
    ∃ assertion, parse "duration == 1.001s" = .ok assertion ∧
      (evaluate {} {} (some ⟨200, 1001, [], none, ""⟩) assertion).pass = false := by
  obtain ⟨-, options, assertion, written, judged⟩ := seconds_scaled overSecond
  have drifts : Double.drift overSecond.millis = -1 := by decide
  have kept : overSecond.kept = 1000 := by decide
  obtain ⟨timeout, -⟩ := options { place := .options } rfl
  rw [kept] at timeout
  have below : (1001 : Nat) < Nat.pow 2 64 := by decide
  refine ⟨rfl, by decide, drifts, rfl, timeout, below, assertion, written, ?_⟩
  rw [← Bool.not_eq_true, judged {} {} ⟨200, 1001, [], none, ""⟩ below, drifts]
  decide

end Assertion
end Runbook

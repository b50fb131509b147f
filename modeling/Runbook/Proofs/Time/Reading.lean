import Runbook.Proofs.Text.Decimal
import Runbook.Time.Calendar
import Runbook.Time.Reader

/-!
Times read back. The calendar goes both ways: every count of days since 1970 has a date, and that date has the same count.
-/

namespace Runbook.Time

/-- A day of four centuries by its century, its run of four years, its year and its day of that year; only a leap year
has a last day. -/
structure Cycle (dayOfEra century quad year day : Int) : Prop where
  split : dayOfEra = 36524 * century + 1461 * quad + 365 * year + day
  centuries : 0 ≤ century ∧ century ≤ 3
  quads : 0 ≤ quad ∧ quad ≤ 24
  years : 0 ≤ year ∧ year ≤ 3
  days : 0 ≤ day ∧ day ≤ 365
  leap : day = 365 → year = 3 ∧ (quad < 24 ∨ century = 3)

theorem exists_cycle {dayOfEra : Int} (inside : 0 ≤ dayOfEra ∧ dayOfEra < 146097) :
    ∃ century quad year day, Cycle dayOfEra century quad year day := by
  obtain ⟨century, rest, centuries, lower, upper, last⟩ : ∃ century rest : Int, dayOfEra = 36524 * century + rest ∧
      (0 ≤ century ∧ century ≤ 3) ∧ (0 ≤ rest ∧ rest ≤ 36524) ∧ (rest = 36524 → century = 3) :=
    ⟨min (dayOfEra / 36524) 3, dayOfEra - 36524 * min (dayOfEra / 36524) 3, by omega, by omega, by omega, by omega⟩
  obtain ⟨quad, inner, quads, within, span⟩ : ∃ quad inner : Int, rest = 1461 * quad + inner ∧
      (0 ≤ quad ∧ quad ≤ 24) ∧ (0 ≤ inner ∧ inner ≤ 1460) :=
    ⟨rest / 1461, rest % 1461, by omega, by omega, by omega⟩
  refine ⟨century, quad, min (inner / 365) 3, inner - 365 * min (inner / 365) 3, by omega, lower, within, by omega,
    by omega, by omega⟩

theorem Cycle.yearOfEra {dayOfEra century quad year day : Int} (cycle : Cycle dayOfEra century quad year day) :
    (dayOfEra - dayOfEra / 1460 + dayOfEra / 36524 - dayOfEra / 146096) / 365 = 100 * century + 4 * quad + year := by
  obtain ⟨split, centuries, quads, years, days, leap⟩ := cycle
  have marks : dayOfEra / 36524 - dayOfEra / 146096 = century := by
    have last : 1461 * quad + 365 * year + day < 36524 ∨ century = 3 ∧ quad = 24 ∧ year = 3 ∧ day = 365 := by omega
    rcases last with before | ⟨rfl, rfl, rfl, rfl⟩
    · have whole : dayOfEra / 36524 = century := by omega
      omega
    · subst split
      decide
  have short : dayOfEra / 1460 = 25 * century + quad ∧ 24 * century + quad + 365 * year + day < 1460 ∨
      dayOfEra / 1460 = 25 * century + quad + 1 ∧ 1460 ≤ 24 * century + quad + 365 * year + day := by omega
  omega

theorem Cycle.dayOfYear {dayOfEra century quad year day : Int} (cycle : Cycle dayOfEra century quad year day) :
    dayOfEra - (365 * (100 * century + 4 * quad + year) + (100 * century + 4 * quad + year) / 4 -
      (100 * century + 4 * quad + year) / 100) = day := by
  obtain ⟨split, centuries, quads, years, days, leap⟩ := cycle
  have leaps : (100 * century + 4 * quad + year) / 4 = 25 * century + quad := by omega
  have marks : (100 * century + 4 * quad + year) / 100 = century := by omega
  omega

/-- The date of a day of a year that starts in March. -/
def marchDate (year dayOfYear : Int) : Date :=
  let fromMarch := (5 * dayOfYear + 2) / 153
  let month := if fromMarch < 10 then fromMarch + 3 else fromMarch - 9
  ⟨if month ≤ 2 then year + 1 else year, month.toNat, (dayOfYear - (153 * fromMarch + 2) / 5 + 1).toNat⟩

/-- The day that a count of days since 1970 lies on. -/
theorem exists_ofDays (days : Int) :
    ∃ era dayOfEra century quad year day, Cycle dayOfEra century quad year day ∧
      days = 146097 * era + dayOfEra - 719468 ∧
      Date.ofDays days = marchDate (400 * era + 100 * century + 4 * quad + year) day := by
  have inside : 0 ≤ (days + 719468) % 146097 ∧ (days + 719468) % 146097 < 146097 := by omega
  obtain ⟨century, quad, year, day, cycle⟩ := exists_cycle inside
  refine ⟨(days + 719468) / 146097, _, century, quad, year, day, cycle, by omega, ?_⟩
  have era : (days + 719468).fdiv 146097 = (days + 719468) / 146097 := Int.fdiv_eq_ediv_of_nonneg _ (by decide)
  have dayOfEra : days + 719468 - (days + 719468) / 146097 * 146097 = (days + 719468) % 146097 := by omega
  have whole : 100 * century + 4 * quad + year + (days + 719468) / 146097 * 400 =
      400 * ((days + 719468) / 146097) + 100 * century + 4 * quad + year := by omega
  unfold Date.ofDays marchDate
  simp only [era, dayOfEra, cycle.yearOfEra, cycle.dayOfYear, whole]

/-- The months of a year that starts in March, each with its first day and the first day after it. -/
theorem months {day : Int} (inside : 0 ≤ day ∧ day ≤ 365) :
    ∃ fromMarch : Int, (5 * day + 2) / 153 = fromMarch ∧ (0 ≤ fromMarch ∧ fromMarch ≤ 11) ∧
      (153 * fromMarch + 2) / 5 ≤ day ∧ day < (153 * (fromMarch + 1) + 2) / 5 := by
  refine ⟨_, rfl, by omega, by omega, by omega⟩

/-- A date of a year that starts in March is a year, a month and a day of the calendar. -/
theorem marchDate_eq {day fromMarch : Int} (year : Int) (month : (5 * day + 2) / 153 = fromMarch)
    (inside : 0 ≤ fromMarch ∧ fromMarch ≤ 11) :
    marchDate year day =
      if fromMarch < 10 then ⟨year, (fromMarch + 3).toNat, (day - (153 * fromMarch + 2) / 5 + 1).toNat⟩
      else ⟨year + 1, (fromMarch - 9).toNat, (day - (153 * fromMarch + 2) / 5 + 1).toNat⟩ := by
  unfold marchDate
  simp only [month]
  split
  · next early => rw [if_neg (by omega)]
  · next late => rw [if_pos (by omega)]

/-- The days before a date are counted from March, so that the leap day comes last. -/
theorem toDays_eq (era yearOfEra fromMarch : Int) {date : Date}
    (shifted : ((date.month : Int) + 9) % 12 = fromMarch)
    (split : (if date.month ≤ 2 then date.year - 1 else date.year) = 400 * era + yearOfEra)
    (inside : 0 ≤ yearOfEra ∧ yearOfEra ≤ 399) :
    date.toDays = 146097 * era + (yearOfEra * 365 + yearOfEra / 4 - yearOfEra / 100 +
      ((153 * fromMarch + 2) / 5 + date.day - 1)) - 719468 := by
  have whole : (400 * era + yearOfEra).fdiv 400 = era := by
    rw [Int.fdiv_eq_ediv_of_nonneg _ (by decide)]
    omega
  have rest : 400 * era + yearOfEra - era * 400 = yearOfEra := by omega
  unfold Date.toDays
  simp only [split, whole, rest, shifted]
  omega

theorem Cycle.toDays {dayOfEra century quad year day : Int} (cycle : Cycle dayOfEra century quad year day) (era : Int) :
    (marchDate (400 * era + 100 * century + 4 * quad + year) day).toDays = 146097 * era + dayOfEra - 719468 := by
  obtain ⟨fromMarch, month, months, first, last⟩ := months cycle.days
  obtain ⟨split, centuries, quads, years, days, leap⟩ := cycle
  rw [marchDate_eq _ month months]
  have leaps : (100 * century + 4 * quad + year) / 4 = 25 * century + quad := by omega
  have marks : (100 * century + 4 * quad + year) / 100 = century := by omega
  have inside : 0 ≤ 100 * century + 4 * quad + year ∧ 100 * century + 4 * quad + year ≤ 399 := by omega
  split
  · next early =>
    rw [toDays_eq era _ fromMarch (by simp only; omega) (by simp only; split <;> omega) inside]
    simp only [leaps, marks]
    omega
  · next late =>
    rw [toDays_eq era _ fromMarch (by simp only; omega) (by simp only; split <;> omega) inside]
    simp only [leaps, marks]
    omega

theorem Cycle.isDay {dayOfEra century quad year day : Int} (cycle : Cycle dayOfEra century quad year day) (era : Int) :
    (marchDate (400 * era + 100 * century + 4 * quad + year) day).isDay = true := by
  obtain ⟨fromMarch, month, months, first, last⟩ := months cycle.days
  obtain ⟨split, centuries, quads, years, days, leap⟩ := cycle
  rw [marchDate_eq _ month months]
  by_cases february : fromMarch = 11
  · subst february
    have leapYear : day = 365 → isLeapYear (400 * era + 100 * century + 4 * quad + year + 1) = true := by
      intro last
      obtain ⟨rfl, turn⟩ := leap last
      simp only [isLeapYear, Int.fmod_eq_emod_of_nonneg _ (show (0 : Int) ≤ 4 by decide),
        Int.fmod_eq_emod_of_nonneg _ (show (0 : Int) ≤ 100 by decide),
        Int.fmod_eq_emod_of_nonneg _ (show (0 : Int) ≤ 400 by decide), Bool.and_eq_true, Bool.or_eq_true, beq_iff_eq,
        bne_iff_ne]
      omega
    by_cases last : day = 365
    · simp [Date.isDay, monthLength, leapYear last, last]
    · simp [Date.isDay, monthLength]
      split <;> omega
  · have other : fromMarch = 0 ∨ fromMarch = 1 ∨ fromMarch = 2 ∨ fromMarch = 3 ∨ fromMarch = 4 ∨ fromMarch = 5 ∨
        fromMarch = 6 ∨ fromMarch = 7 ∨ fromMarch = 8 ∨ fromMarch = 9 ∨ fromMarch = 10 := by omega
    rcases other with rfl | rfl | rfl | rfl | rfl | rfl | rfl | rfl | rfl | rfl | rfl <;>
      simp [Date.isDay, monthLength] <;> omega
/-- Every day has a date, and the date names that day. -/
theorem toDays_ofDays (days : Int) : (Date.ofDays days).toDays = days ∧ (Date.ofDays days).isDay = true := by
  obtain ⟨era, dayOfEra, century, quad, year, day, cycle, count, date⟩ := exists_ofDays days
  rw [date]
  exact ⟨(cycle.toDays era).trans count.symm, cycle.isDay era⟩

end Runbook.Time

/-!
Instants read back: what an instant is written as in a year of four digits is read as that instant.
-/

namespace Runbook.Time.Instant

open Runbook.Text

/-- An instant in a year of four digits. It lies within its second, or in the leap second behind the last second of a
minute. -/
structure IsDated (instant : Instant) : Prop where
  year : 0 ≤ instant.date.year ∧ instant.date.year ≤ 9999
  nanos : instant.nanos < nanosPerSecond ∨ instant.nanos < 2 * nanosPerSecond ∧ instant.seconds % 60 = 59

variable {rest : List Char} {width n : Nat}

/-- A number of fixed width is taken from the front of a text, where so many digits are wanted or fewer. -/
theorem takeNumber_padded {least : Nat} (pos : 0 < width) (enough : least ≤ width) (below : n < Nat.pow 10 width)
    (rest : List Char) : takeNumber least width ((padded width n).toList ++ rest) = some (n, rest) := by
  have long := length_padded pos below
  have front : ((padded width n).toList ++ rest).take width = (padded width n).toList := by
    rw [List.take_append_of_le_length (by omega), List.take_of_length_le (by omega)]
  have digits : (padded width n).toList.takeWhile isDigit = (padded width n).toList :=
    List.takeWhile_eq_self_iff.mpr fun _ => isDigit_of_mem_padded
  unfold takeNumber
  simp only [front, digits, long, Nat.not_lt.mpr enough, if_false, decimalValue_padded]
  rw [List.drop_left' long]

/-- A number of fixed width starts with a digit. -/
theorem exists_head_padded (pos : 0 < width) (below : n < Nat.pow 10 width) :
    ∃ c more, (padded width n).toList = c :: more ∧ isDigit c = true := by
  have long := length_padded pos below
  obtain ⟨c, more, whole⟩ : ∃ c more, (padded width n).toList = c :: more :=
    List.exists_cons_of_ne_nil (List.ne_nil_of_length_pos (by omega))
  exact ⟨c, more, whole, isDigit_of_mem_padded (whole ▸ List.mem_cons_self)⟩

/-- There are no blanks to skip in front of a number. -/
theorem dropFront_padded (pos : 0 < width) (below : n < Nat.pow 10 width) (rest : List Char) :
    dropFront isBlank ((padded width n).toList ++ rest) = (padded width n).toList ++ rest := by
  obtain ⟨c, more, whole, digit⟩ := exists_head_padded pos below
  rw [whole, List.cons_append, dropFront, List.dropWhile_cons_of_neg]
  rw [isBlank_eq_false_of_isDigit digit]
  exact Bool.false_ne_true

/-- The fraction of a second is taken from the front of a text, whatever its width. -/
theorem takeFraction_padded (pos : 0 < width) (fits : width ≤ 9) (below : n < Nat.pow 10 width)
    (ends : ∀ c ∈ rest.head?, isDigit c = false) :
    takeFraction ((padded width n).toList ++ rest) = some (n * Nat.pow 10 (9 - width), rest) := by
  have long := length_padded pos below
  have behind : rest.takeWhile isDigit = [] := by
    cases rest with
    | nil => rfl
    | cons c rest => rw [List.takeWhile_cons_of_neg (by simp [ends c rfl])]
  have digits : ((padded width n).toList ++ rest).takeWhile isDigit = (padded width n).toList := by
    rw [List.takeWhile_append_of_pos fun _ => isDigit_of_mem_padded, behind, List.append_nil]
  have filled : (padded width n).toList.isEmpty = false :=
    List.isEmpty_eq_false_iff.mpr (List.ne_nil_of_length_pos (by omega))
  have kept : (padded width n).toList.take 9 = (padded width n).toList := List.take_of_length_le (by omega)
  unfold takeFraction
  simp only [digits, filled, kept, Bool.false_eq_true, if_false, decimalValue_padded]
  rw [List.drop_left, long]

/-- The written fraction of a second holds every nanosecond. -/
theorem takeFraction?_fractionText (instant : Instant) (ends : ∀ c ∈ rest.head?, isDigit c = false ∧ c ≠ '.') :
    takeFraction? (instant.fractionText.toList ++ rest) = some (instant.nanos % nanosPerSecond, rest) := by
  have inside : instant.nanos % nanosPerSecond < 1000000000 := Nat.mod_lt _ (by decide)
  have written {width value : Nat} (pos : 0 < width) (fits : width ≤ 9) (below : value < Nat.pow 10 width)
      (whole : value * Nat.pow 10 (9 - width) = instant.nanos % nanosPerSecond) :
      takeFraction? (("." ++ padded width value).toList ++ rest) =
        some (instant.nanos % nanosPerSecond, rest) := by
    have point : ".".toList = ['.'] := rfl
    rw [String.toList_append, List.append_assoc, point, List.singleton_append, takeFraction?, ← whole]
    exact takeFraction_padded pos fits below fun c first => (ends c first).1
  unfold fractionText
  dsimp only
  split
  · next none =>
    rw [none]
    cases rest with
    | nil => rfl
    | cons c rest =>
      have point := (ends c rfl).2
      unfold takeFraction?
      split
      · next same => exact absurd (List.cons.inj same).1 point
      · rfl
  · split
    · exact written (by decide) (by decide) (by simp; omega) (by simp; omega)
    · split
      · exact written (by decide) (by decide) (by simp; omega) (by simp; omega)
      · exact written (by decide) (by decide) (by omega) (by simp)

/-- What stands in front of a text is one character. -/
theorem afterFront?_cons (c : Char) (rest : List Char) : afterFront? [c] (c :: rest) = some rest := by
  simp [afterFront?]

/-- A reading goes on with what has been read. -/
theorem bind_of_eq_some {α β : Type} {first : Option α} {value : α} (known : first = some value)
    (next : α → Option β) : first >>= next = next value := by
  rw [known]
  rfl

/-- The numbers of a date and a time of day that are written with two digits each, and the year with four. -/
structure Fields where
  year : Nat
  month : Nat
  day : Nat
  hour : Nat
  minute : Nat
  second : Nat

namespace Fields

/-- Every number fits into its digits. -/
structure Fit (fields : Fields) : Prop where
  year : fields.year < 10000
  month : fields.month < 100
  day : fields.day < 100
  hour : fields.hour < 100
  minute : fields.minute < 100
  second : fields.second < 100

/-- The numbers with the marks between them, and what stands behind them. -/
def written (fields : Fields) (rest : List Char) : List Char :=
  (padded 4 fields.year).toList ++ '-' :: ((padded 2 fields.month).toList ++ '-' :: ((padded 2 fields.day).toList ++
    'T' :: ((padded 2 fields.hour).toList ++ ':' :: ((padded 2 fields.minute).toList ++
      ':' :: ((padded 2 fields.second).toList ++ rest)))))

/-- The instant that the numbers make up with a fraction and an offset. -/
def instant? (fields : Fields) (nanos : Nat) (offset : Int) : Option Instant :=
  ofParts? ⟨fields.year, fields.month, fields.day⟩ fields.hour fields.minute fields.second nanos offset

variable {fields : Fields} {nanos : Nat} {offset : Int} {fraction zone : List Char}

/-- The text of a date and a time of day, with a fraction and a zone behind it, is read part by part. -/
theorem Fit.readStrict? (fit : fields.Fit) (part : takeFraction? (fraction ++ zone) = some (nanos, zone))
    (shift : takeOffset (afterFront? [':']) zone = some (offset, [])) :
    Instant.readStrict? (fields.written (fraction ++ zone)) = fields.instant? nanos offset := by
  unfold Instant.readStrict? written
  refine (bind_of_eq_some (takeNumber_padded (Nat.zero_lt_succ 3) (Nat.le_refl _) fit.year _) _).trans ?_
  refine (bind_of_eq_some (afterFront?_cons _ _) _).trans ?_
  refine (bind_of_eq_some (takeNumber_padded (Nat.zero_lt_succ 1) (Nat.le_refl _) fit.month _) _).trans ?_
  refine (bind_of_eq_some (afterFront?_cons _ _) _).trans ?_
  refine (bind_of_eq_some (takeNumber_padded (Nat.zero_lt_succ 1) (Nat.le_refl _) fit.day _) _).trans ?_
  -- The mark between date and time is there and known.
  refine (bind_of_eq_some rfl _).trans ?_
  refine (bind_of_eq_some (takeNumber_padded (Nat.zero_lt_succ 1) (Nat.le_refl _) fit.hour _) _).trans ?_
  refine (bind_of_eq_some (afterFront?_cons _ _) _).trans ?_
  refine (bind_of_eq_some (takeNumber_padded (Nat.zero_lt_succ 1) (Nat.le_refl _) fit.minute _) _).trans ?_
  refine (bind_of_eq_some (afterFront?_cons _ _) _).trans ?_
  refine (bind_of_eq_some (takeNumber_padded (Nat.zero_lt_succ 1) (Nat.le_refl _) fit.second _) _).trans ?_
  refine (bind_of_eq_some part _).trans ?_
  exact bind_of_eq_some shift _

/-- A year without a sign is taken from the front of a text. -/
theorem Fit.takeYear (fit : fields.Fit) (rest : List Char) :
    Instant.takeYear ((padded 4 fields.year).toList ++ rest) = some ((fields.year : Int), rest) := by
  have number : takeNumber 1 4 ((padded 4 fields.year).toList ++ rest) = some (fields.year, rest) :=
    takeNumber_padded (Nat.zero_lt_succ 3) (by decide) fit.year rest
  obtain ⟨c, more, whole, digit⟩ := exists_head_padded (Nat.zero_lt_succ 3) fit.year
  rw [whole, List.cons_append] at number ⊢
  unfold Instant.takeYear
  split
  · next same =>
    rw [(List.cons.inj same).1] at digit
    cases digit
  · next same =>
    rw [(List.cons.inj same).1] at digit
    cases digit
  · rw [number]
    rfl

/-- Read in the lenient form, the same text gives the same parts: it has no blanks to skip. -/
theorem Fit.read? (fit : fields.Fit) (part : takeFraction? (fraction ++ ['Z']) = some (nanos, ['Z'])) :
    Instant.read? (fields.written (fraction ++ ['Z'])) = fields.instant? nanos 0 := by
  have near : fields.year ≤ yearLimit := Nat.le_of_lt (fit.year.trans (by decide))
  -- A mark is no blank, so it is read where it stands, and the blanks behind it are none.
  have dash (rest : List Char) : afterFront? ['-'] (dropFront isBlank ('-' :: rest)) = some rest :=
    afterFront?_cons _ _
  have colon (rest : List Char) : afterFront? [':'] (dropFront isBlank (':' :: rest)) = some rest :=
    afterFront?_cons _ _
  have two {n : Nat} (below : n < 100) (rest : List Char) :
      takeNumber 1 2 (dropFront isBlank ((padded 2 n).toList ++ rest)) = some (n, rest) := by
    rw [dropFront_padded (Nat.zero_lt_succ 1) below]
    exact takeNumber_padded (Nat.zero_lt_succ 1) (Nat.le_succ 1) below rest
  have year (rest : List Char) :
      Instant.takeYear (dropFront isBlank ((padded 4 fields.year).toList ++ rest)) = some ((fields.year : Int), rest) := by
    rw [dropFront_padded (Nat.zero_lt_succ 3) fit.year, fit.takeYear]
  unfold Instant.read? written
  refine (bind_of_eq_some (year _) _).trans ?_
  refine (bind_of_eq_some (dash _) _).trans ?_
  refine (bind_of_eq_some (two fit.month _) _).trans ?_
  refine (bind_of_eq_some (dash _) _).trans ?_
  refine (bind_of_eq_some (two fit.day _) _).trans ?_
  refine (bind_of_eq_some rfl _).trans ?_
  refine (bind_of_eq_some (two fit.hour _) _).trans ?_
  refine (bind_of_eq_some (colon _) _).trans ?_
  refine (bind_of_eq_some (two fit.minute _) _).trans ?_
  refine (bind_of_eq_some (colon _) _).trans ?_
  refine (bind_of_eq_some (two fit.second _) _).trans ?_
  refine (bind_of_eq_some part _).trans ?_
  -- The zone is not the word for universal time but the letter.
  refine (if_neg (by decide)).trans ((bind_of_eq_some rfl _).trans ?_)
  exact if_pos (by simpa using near)

end Fields

/-- The second of the day is what the days before leave of an instant. -/
theorem secondOfDay_spec (instant : Instant) :
    instant.secondOfDay < 86400 ∧ instant.seconds = instant.seconds.fdiv daySeconds * daySeconds + instant.secondOfDay := by
  have day : (0 : Int) ≤ daySeconds := by decide
  unfold secondOfDay
  rw [Int.fmod_eq_emod_of_nonneg _ day, Int.fdiv_eq_ediv_of_nonneg _ day]
  unfold daySeconds
  omega

/-- The seconds that an instant writes beside its second of the day: none, or the leap second behind the last second of
a minute. -/
theorem IsDated.leap {instant : Instant} (dated : instant.IsDated) :
    instant.nanos / nanosPerSecond = 0 ∧ instant.nanos % nanosPerSecond = instant.nanos ∨
      instant.nanos / nanosPerSecond = 1 ∧ instant.nanos % nanosPerSecond + nanosPerSecond = instant.nanos ∧
        instant.secondOfDay % 60 = 59 := by
  obtain ⟨-, whole⟩ := instant.secondOfDay_spec
  have fits := dated.nanos
  unfold daySeconds at whole
  unfold nanosPerSecond at fits ⊢
  omega

/-- The parts of an instant make up that instant. -/
theorem ofParts?_parts {instant : Instant} (dated : instant.IsDated) :
    ofParts? instant.date (instant.secondOfDay / 3600) (instant.secondOfDay / 60 % 60)
      (instant.secondOfDay % 60 + instant.nanos / nanosPerSecond) (instant.nanos % nanosPerSecond) 0 = some instant := by
  obtain ⟨count, isDay⟩ := toDays_ofDays (instant.seconds.fdiv daySeconds)
  obtain ⟨inside, whole⟩ := instant.secondOfDay_spec
  have hours : instant.secondOfDay / 3600 < 24 := by omega
  have minutes : instant.secondOfDay / 60 % 60 < 60 := by omega
  have seconds : instant.secondOfDay % 60 + instant.nanos / nanosPerSecond ≤ 60 := by
    rcases dated.leap with ⟨none, -⟩ | ⟨one, -, -⟩ <;> omega
  have ranges : (instant.date.isDay && decide (instant.secondOfDay / 3600 < 24) &&
      decide (instant.secondOfDay / 60 % 60 < 60) &&
      decide (instant.secondOfDay % 60 + instant.nanos / nanosPerSecond ≤ 60) &&
      decide ((0 : Int).natAbs < 86400)) = true := by
    simp [date, isDay, hours, minutes, seconds]
  have day : daySeconds = 86400 := rfl
  rw [day] at whole
  unfold ofParts?
  rw [if_pos ranges, date, count, day]
  rcases dated.leap with ⟨none, nanos⟩ | ⟨one, nanos, last⟩
  · have apart : instant.secondOfDay % 60 + 0 ≠ 60 := by omega
    rw [none, if_neg apart, nanos]
    refine congrArg some (congrArg (Instant.mk · _) ?_)
    omega
  · rw [one, last, if_pos rfl, nanos]
    refine congrArg some (congrArg (Instant.mk · _) ?_)
    omega

theorem monthLength_le (year : Int) (month : Nat) : monthLength year month ≤ 31 := by
  unfold monthLength
  split
  · split <;> decide
  · split <;> decide

/-- The numbers that an instant is written with. -/
def fields (instant : Instant) : Fields where
  year := instant.date.year.toNat
  month := instant.date.month
  day := instant.date.day
  hour := instant.secondOfDay / 3600
  minute := instant.secondOfDay / 60 % 60
  second := instant.secondOfDay % 60 + instant.nanos / nanosPerSecond

namespace IsDated

variable {instant : Instant}

theorem fit (dated : instant.IsDated) : instant.fields.Fit := by
  obtain ⟨after, before⟩ := dated.year
  obtain ⟨inside, -⟩ := instant.secondOfDay_spec
  have isDay : instant.date.isDay = true := (toDays_ofDays (instant.seconds.fdiv daySeconds)).2
  simp only [Date.isDay, Bool.and_eq_true, decide_eq_true_eq] at isDay
  have days := monthLength_le instant.date.year instant.date.month
  have seconds : instant.secondOfDay % 60 + instant.nanos / nanosPerSecond < 100 := by
    rcases dated.leap with ⟨none, -⟩ | ⟨one, -, -⟩ <;> omega
  constructor <;> simp only [fields] <;> omega

/-- The numbers of an instant make up that instant. -/
theorem instant?_fields (dated : instant.IsDated) :
    instant.fields.instant? (instant.nanos % nanosPerSecond) 0 = some instant := by
  have date : (⟨instant.date.year.toNat, instant.date.month, instant.date.day⟩ : Date) = instant.date := by
    rw [Int.toNat_of_nonneg dated.year.1]
  unfold Fields.instant? fields
  rw [date]
  exact ofParts?_parts dated

theorem toList_withZone (dated : instant.IsDated) (zone : String) :
    (instant.withZone zone).toList = instant.fields.written (instant.fractionText.toList ++ zone.toList) := by
  obtain ⟨after, before⟩ := dated.year
  have year : yearText instant.date.year = padded 4 instant.date.year.toNat := by
    simp [yearText, after, before]
  simp [withZone, dateText, timeText, year, Fields.written, fields]

end IsDated

variable {instant : Instant}

/-- An instant in a year of four digits is read back from its written form. -/
theorem readStrict?_withZone (dated : instant.IsDated) :
    readStrict? (instant.withZone "+00:00").toList = some instant := by
  have zone : ∀ c ∈ "+00:00".toList.head?, isDigit c = false ∧ c ≠ '.' := by
    intro c first
    obtain rfl : '+' = c := Option.some.inj first
    decide
  have shift : takeOffset (afterFront? [':']) "+00:00".toList = some (0, []) := by rfl
  rw [dated.toList_withZone, dated.fit.readStrict? (takeFraction?_fractionText instant zone) shift]
  exact dated.instant?_fields

/-- What an instant is written as in documents is read back in the lenient form. -/
theorem read?_text (dated : instant.IsDated) : read? instant.text.toList = some instant := by
  have zone : ∀ c ∈ ['Z'].head?, isDigit c = false ∧ c ≠ '.' := by
    intro c first
    obtain rfl : 'Z' = c := Option.some.inj first
    decide
  rw [text, dated.toList_withZone]
  change read? (instant.fields.written (instant.fractionText.toList ++ ['Z'])) = _
  rw [dated.fit.read? (takeFraction?_fractionText instant zone)]
  exact dated.instant?_fields

end Runbook.Time.Instant

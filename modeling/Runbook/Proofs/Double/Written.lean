import Runbook.Proofs.Double.Shortest
import Runbook.Proofs.Text.Lines

/-!
Doubles in writing. Every layout writes a decimal as digits with a point among them or an exponent behind them, and such
a text is read as the decimal that it writes. So a real double is read back from its text, whatever layout it has.
-/

namespace Runbook.Double

open Runbook.Text

variable {negative : Bool} {mantissa : Nat} {exponent : Int} {decimal : Decimal}

/-- A decimal in writing: digits before the point, digits behind it, and an exponent with or without a plus sign. -/
structure Written where
  whole : List Char
  fraction : List Char
  exponent : Option (Bool × Int)
  filled : whole ≠ []
  digits : ∀ c ∈ whole ++ fraction, isDigit c = true
  /-- No zero stands in front of other digits. -/
  leading : whole.head? = some '0' → whole = ['0']
  /-- The text is no integer. -/
  real : fraction ≠ [] ∨ exponent.isSome
  /-- Only what is not negative has a plus sign. -/
  signed : ∀ power, exponent = some (true, power) → 0 ≤ power

namespace Written

variable (written : Written)

/-- The text of an exponent behind its mark. -/
def signedText (plus : Bool) (power : Int) : List Char := (if plus then ['+'] else []) ++ (toString power).toList

/-- What stands behind the digits. -/
def mark : List Char :=
  match written.exponent with
  | none => []
  | some (plus, power) => 'e' :: signedText plus power

/-- The text of a decimal. -/
def text : List Char :=
  written.whole ++ ((if written.fraction.isEmpty then [] else '.' :: written.fraction) ++ written.mark)

/-- The number that the digits write without their point. -/
def coefficient : Nat := decimalValue (written.whole ++ written.fraction)

/-- The power of ten that the digits are scaled with. -/
def power : Int := (written.exponent.map Prod.snd).getD 0 - written.fraction.length

/-- The number that a written decimal is. -/
def toRat : ℚ := written.coefficient * 10 ^ written.power

theorem wholeDigits : ∀ c ∈ written.whole, isDigit c = true := fun c member =>
  written.digits c (List.mem_append_left _ member)

theorem fractionDigits : ∀ c ∈ written.fraction, isDigit c = true := fun c member =>
  written.digits c (List.mem_append_right _ member)

end Written

/-! Reading what is written -/

/-- An exponent is read back. -/
theorem exponent?_signedText {plus : Bool} {power : Int} (signed : plus = true → 0 ≤ power) :
    exponent? (Written.signedText plus power) = some power := by
  have all : (toString power.natAbs).toList.all isDigit = true :=
    List.all_eq_true.mpr fun _ member => isDigit_of_mem_toString member
  have filled : (toString power.natAbs).toList.isEmpty = false := List.isEmpty_eq_false_iff.mpr toList_toString_ne_nil
  have value := decimalValue_toString power.natAbs
  unfold Written.signedText
  rw [toList_toString_int]
  cases plus with
  | true =>
    have whole := signed rfl
    simp only [if_true, if_neg (Int.not_lt.mpr whole), List.nil_append, List.singleton_append, exponent?, all, filled,
      value, Bool.not_false, Bool.and_self, Bool.false_eq_true, if_false]
    exact congrArg some (Int.natAbs_of_nonneg whole)
  | false =>
    simp only [Bool.false_eq_true, if_false, List.nil_append]
    split
    · simp only [List.singleton_append, exponent?, all, filled, value, Bool.not_false, Bool.and_self, if_true]
      exact congrArg some (by omega)
    · next whole =>
      obtain ⟨c, more, parts⟩ := List.exists_cons_of_ne_nil (toList_toString_ne_nil (n := power.natAbs))
      have digit : isDigit c = true := isDigit_of_mem_toString (by rw [parts]; exact List.mem_cons_self)
      have signless : c ≠ '+' ∧ c ≠ '-' := by
        constructor <;> rintro rfl <;> exact absurd digit (by decide)
      rw [parts] at all filled value
      rw [parts, List.nil_append]
      unfold exponent?
      split
      next sign =>
        split at sign
        · next same => exact absurd (List.cons.inj same).1 signless.1
        · next same => exact absurd (List.cons.inj same).1 signless.2
        · cases sign
          simp only [all, filled, value, Bool.not_false, Bool.and_self, Bool.false_eq_true, if_true, if_false]
          exact congrArg some (Int.natAbs_of_nonneg (Int.not_lt.mp whole))

/-- What stands behind the digits of a decimal scales them. -/
theorem Written.magnitude?_mark (written : Written) (negative : Bool) :
    (match written.mark with
      | [] => some (ofDecimal negative written.coefficient (0 - written.fraction.length))
      | mark :: digits => if mark == 'e' || mark == 'E' then (exponent? digits).map fun power =>
          ofDecimal negative written.coefficient (power - written.fraction.length) else none) =
      some (ofDecimal negative written.coefficient written.power) := by
  unfold mark power
  cases same : written.exponent with
  | none => rfl
  | some pair =>
    obtain ⟨plus, power⟩ := pair
    have signed : plus = true → 0 ≤ power := fun plus => written.signed power (by rw [same, plus])
    simp [exponent?_signedText signed]

theorem Written.magnitude?_text (written : Written) (negative : Bool) :
    magnitude? negative written.text = some (ofDecimal negative written.coefficient written.power) := by
  have marked : ∀ c ∈ written.mark.head?, c = 'e' := by
    unfold mark
    split <;> simp
  have filled : written.whole.isEmpty = false := List.isEmpty_eq_false_iff.mpr written.filled
  have ends := written.magnitude?_mark negative
  have behind : ∀ c ∈ written.mark.head?, isDigit c = false := fun c first => by rw [marked c first]; rfl
  unfold text
  by_cases pointed : written.fraction = []
  · have run := takeWhile_run written.wholeDigits behind
    have rest := dropWhile_run written.wholeDigits behind
    rw [pointed, List.isEmpty_nil, if_pos rfl, List.nil_append]
    unfold magnitude?
    rw [run, rest]
    dsimp only
    split
    next more point =>
      have first := marked '.' (by rw [point]; rfl)
      cases first
    · simp only [coefficient, pointed, List.length_nil] at ends
      rw [filled, Bool.false_and, if_neg (by decide), coefficient, pointed]
      exact ends
  · have empty : written.fraction.isEmpty = false := List.isEmpty_eq_false_iff.mpr pointed
    have point : ∀ c ∈ ('.' :: (written.fraction ++ written.mark)).head?, isDigit c = false := fun c first => by
      obtain rfl : '.' = c := Option.some.inj first
      rfl
    have run := takeWhile_run written.wholeDigits point
    have rest := dropWhile_run written.wholeDigits point
    have digits := takeWhile_run written.fractionDigits behind
    have after := dropWhile_run written.fractionDigits behind
    rw [empty, if_neg (by decide), List.cons_append]
    unfold magnitude?
    rw [run, rest]
    dsimp only
    split
    next more same =>
      cases (List.cons.inj same).2
      rw [digits, after, filled, Bool.false_and, if_neg (by decide)]
      exact ends
    next other => exact absurd rfl (other _)

/-! Writing decimals -/

theorem toList_pushn (c : Char) (n : Nat) : ("".pushn c n).toList = List.replicate n c := by
  induction n with
  | zero => rfl
  | succ n ih =>
    have pushed : "".pushn c (n + 1) = ("".pushn c n).push c := rfl
    rw [pushed, String.toList_push, ih, List.replicate_succ']

/-- A decimal below one is written with zeros behind the point. -/
theorem exists_written_below (below : (toString decimal.coefficient).length + decimal.power ≤ 0) :
    ∃ written : Written, ("0." ++ "".pushn '0' (-((toString decimal.coefficient).length + decimal.power)).toNat ++
        toString decimal.coefficient).toList = written.text ∧ written.toRat = decimal.toRat := by
  have some : (toString decimal.coefficient).toList ≠ [] := toList_toString_ne_nil
  have value := decimalValue_toString decimal.coefficient
  have digits : ∀ c ∈ (toString decimal.coefficient).toList, isDigit c = true := fun _ => isDigit_of_mem_toString
  rw [← String.length_toList] at below ⊢
  rw [String.toList_append, String.toList_append, toList_pushn]
  generalize (toString decimal.coefficient).toList = run at *
  generalize zeros : (-((run.length : Int) + decimal.power)).toNat = count
  refine ⟨⟨['0'], List.replicate count '0' ++ run, none, by simp, ?_, fun _ => rfl, .inl (by simp [some]), nofun⟩,
    by simp [Written.text, Written.mark, some], ?_⟩
  · simp only [List.mem_append, List.mem_singleton, List.mem_replicate]
    rintro c (rfl | ⟨-, rfl⟩ | member)
    · rfl
    · rfl
    · exact digits c member
  · have power : decimal.power = 0 - ((List.replicate count '0' ++ run).length : Int) := by
      simp only [List.length_append, List.length_replicate]
      omega
    have lead : ['0'] ++ (List.replicate count '0' ++ run) = List.replicate (count + 1) '0' ++ run := rfl
    simp only [Written.toRat, Written.coefficient, Written.power, Decimal.toRat, lead, decimalValue_append,
      decimalValue_zeros, value, Option.map_none, Option.getD_none, ← power, Nat.zero_mul, Nat.zero_add]

section Layout

variable (layout : Layout) (filled : 0 < decimal.coefficient)
include filled

/-- A whole decimal is written with its zeros and a fraction of zero. -/
theorem exists_written_whole (whole : 0 ≤ decimal.power) :
    ∃ written : Written, (toString decimal.coefficient ++ "".pushn '0' decimal.power.toNat ++ ".0").toList =
      written.text ∧ written.toRat = decimal.toRat := by
  have some : (toString decimal.coefficient).toList ≠ [] := toList_toString_ne_nil
  have value := decimalValue_toString decimal.coefficient
  have digits : ∀ c ∈ (toString decimal.coefficient).toList, isDigit c = true := fun _ => isDigit_of_mem_toString
  have first := head?_toString_ne filled
  obtain ⟨count, power⟩ := Int.eq_ofNat_of_zero_le whole
  rw [String.toList_append, String.toList_append, toList_pushn, power]
  generalize (toString decimal.coefficient).toList = run at *
  refine ⟨⟨run ++ List.replicate count '0', ['0'], none, by simp [some], ?_, fun zero => ?_, .inl (by simp), nofun⟩,
    by simp [Written.text, Written.mark], ?_⟩
  · simp only [List.mem_append, List.mem_singleton, List.mem_replicate]
    rintro c ((member | ⟨-, rfl⟩) | rfl)
    · exact digits c member
    · rfl
    · rfl
  · rw [List.head?_append_of_ne_nil _ some] at zero
    exact absurd zero first
  · have last : decimalValue ['0'] = 0 := rfl
    simp only [Written.toRat, Written.coefficient, Written.power, Decimal.toRat, decimalValue_append, decimalValue_zeros,
      last, value, power, List.length_replicate, List.length_singleton, Option.map_none, Option.getD_none]
    simp

/-- A decimal is written with its point among its digits. -/
theorem exists_written_between {cut : Nat} (inside : 0 < cut)
    (point : (cut : Int) = (toString decimal.coefficient).length + decimal.power) (fraction : decimal.power < 0) :
    ∃ written : Written, (String.ofList ((toString decimal.coefficient).toList.take cut) ++ "." ++
        String.ofList ((toString decimal.coefficient).toList.drop cut)).toList = written.text ∧
      written.toRat = decimal.toRat := by
  have some : (toString decimal.coefficient).toList ≠ [] := toList_toString_ne_nil
  have value := decimalValue_toString decimal.coefficient
  have digits : ∀ c ∈ (toString decimal.coefficient).toList, isDigit c = true := fun _ => isDigit_of_mem_toString
  have first := head?_toString_ne filled
  rw [← String.length_toList] at point
  rw [String.toList_append, String.toList_append, String.toList_ofList, String.toList_ofList]
  generalize (toString decimal.coefficient).toList = run at *
  have front : run.take cut ≠ [] := by simp [some, inside.ne']
  have back : run.drop cut ≠ [] := by
    rw [Ne, List.drop_eq_nil_iff]
    omega
  refine ⟨⟨run.take cut, run.drop cut, none, front, ?_, fun zero => ?_, .inl back, nofun⟩,
    by simp [Written.text, Written.mark, back], ?_⟩
  · rwa [List.take_append_drop]
  · rw [List.head?_take, if_neg inside.ne'] at zero
    exact absurd zero first
  · have power : decimal.power = 0 - ((run.drop cut).length : Int) := by
      rw [List.length_drop]
      omega
    simp only [Written.toRat, Written.coefficient, Written.power, Decimal.toRat, List.take_append_drop, value,
      Option.map_none, Option.getD_none, ← power]

/-- A decimal is written with one digit before the point and an exponent. -/
theorem exists_written_exponent (plus : Bool) :
    let exponent : Int := (toString decimal.coefficient).length + decimal.power - 1
    ∃ written : Written, (String.ofList ((toString decimal.coefficient).toList.take 1) ++
        (if (String.ofList ((toString decimal.coefficient).toList.drop 1)).isEmpty then "" else
          "." ++ String.ofList ((toString decimal.coefficient).toList.drop 1)) ++ "e" ++
        (if plus && 0 ≤ exponent then "+" else "") ++ toString exponent).toList = written.text ∧
      written.toRat = decimal.toRat := by
  intro exponent
  have some : (toString decimal.coefficient).toList ≠ [] := toList_toString_ne_nil
  have value := decimalValue_toString decimal.coefficient
  have digits : ∀ c ∈ (toString decimal.coefficient).toList, isDigit c = true := fun _ => isDigit_of_mem_toString
  have first := head?_toString_ne filled
  have place : exponent = (toString decimal.coefficient).toList.length + decimal.power - 1 := by
    rw [String.length_toList]
  generalize (toString decimal.coefficient).toList = run at *
  have long : 0 < run.length := List.length_pos_iff.mpr some
  refine ⟨⟨run.take 1, run.drop 1, .some (plus && 0 ≤ exponent, exponent), by simp [some], ?_, fun zero => ?_, .inr rfl,
    fun power same => ?_⟩, ?_, ?_⟩
  · rwa [List.take_append_drop]
  · rw [List.head?_take, if_neg (by decide)] at zero
    exact absurd zero first
  · cases plus
    · cases same
    · rw [Bool.true_and, Option.some.injEq, Prod.mk.injEq] at same
      rw [← same.2]
      exact of_decide_eq_true same.1
  · simp [Written.text, Written.mark, Written.signedText, apply_ite String.toList, String.toList_append]
  · have power : decimal.power = exponent - ((run.drop 1).length : Int) := by
      rw [List.length_drop, place]
      omega
    simp only [Written.toRat, Written.coefficient, Written.power, Decimal.toRat, List.take_append_drop, value,
      Option.map_some, Option.getD_some, ← power]

/-- Every layout writes a decimal as that number. -/
theorem exists_written : ∃ written : Written, (layout.decimal decimal).toList = written.text ∧
    written.toRat = decimal.toRat := by
  unfold Layout.decimal
  dsimp only
  split
  · split
    · next below => exact exists_written_below below
    · split
      · next whole => exact exists_written_whole filled whole
      · next above fraction =>
        exact exists_written_between filled (by omega) (by omega) (by omega)
  · exact exists_written_exponent filled layout.plus

end Layout

/-- The text of a real double in normal form is a sign and a decimal that is read as the double. -/
theorem exists_written_text (layout : Layout) (normal : IsNormal (finite negative mantissa exponent)) :
    ∃ written : Written,
      (layout.text (finite negative mantissa exponent)).toList = (if negative then ['-'] else []) ++ written.text ∧
      ofDecimal negative written.coefficient written.power = finite negative mantissa exponent := by
  have sign : (if negative then "-" else "").toList = if negative then ['-'] else [] := by
    split <;> rfl
  rw [Layout.text, String.toList_append, sign]
  by_cases none : mantissa = 0
  · have finest : exponent = minExponent := normal.2.2.2.resolve_left (by rw [none]; decide)
    refine ⟨⟨['0'], ['0'], Option.none, by simp, by simp; rfl, fun _ => rfl, .inl (by simp), nofun⟩, ?_, ?_⟩
    · rw [if_pos none]
      rfl
    · rw [none, finest]
      rfl
  · obtain ⟨some, held⟩ := shortest_holds normal none layout.tieUp
    obtain ⟨filled, same⟩ := toRat_reduced _ some
    obtain ⟨written, text, value⟩ := exists_written layout filled
    refine ⟨written, by rw [if_neg none, text], ?_⟩
    rw [same] at value
    rw [← value] at held
    exact ofDecimal_of_holds normal none held

/-- A written decimal starts with a digit. -/
theorem Written.exists_digit (written : Written) : ∃ c ∈ written.text.head?, isDigit c = true := by
  obtain ⟨c, more, whole⟩ := List.exists_cons_of_ne_nil written.filled
  exact ⟨c, by rw [text, whole]; rfl, written.wholeDigits c (by rw [whole]; exact List.mem_cons_self)⟩

/-- A real double in normal form is read back from its text in every layout. -/
theorem read?_text (layout : Layout) {x : Double} (real : x.isFinite = true) (normal : x.IsNormal) :
    read? (layout.text x).toList = some x := by
  cases x with
  | infinite | notANumber => cases real
  | finite negative mantissa exponent =>
    obtain ⟨written, text, value⟩ := exists_written_text layout normal
    rw [text, read?_of_digit written.exists_digit, written.magnitude?_text, value]

end Runbook.Double

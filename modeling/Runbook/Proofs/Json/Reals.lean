import Runbook.Proofs.Double.Written
import Runbook.Proofs.Json.Compact
import Runbook.Proofs.Json.Finite

/-!
Doubles in JSON text. The reader keeps as many leading digits of a written decimal as fit 64 bits and scales what it kept
by a power of ten, so that what it reads of a double may be another double nearby. What it reads depends on nothing but
the text of the double.
-/

namespace Runbook

open Runbook.Text

namespace Double.Written

/-- The digits of a decimal that the reader of JSON numbers keeps. -/
def kept (written : Written) : Json.Significand :=
  let whole := written.whole.foldl Json.Significand.pushWhole {}
  if written.fraction.isEmpty then whole
  else written.fraction.foldl Json.Significand.pushFraction { whole with full := false }

/-- The power of ten behind the mark of the exponent. -/
def scale (written : Written) : Int := (written.exponent.map Prod.snd).getD 0

end Double.Written

namespace Json

open Double

variable {negative : Bool} {whole fraction rest : List Char} {kept : Significand} {power : Int} {x : Double}

/-- The sign of an exponent stands in front of its digits. -/
theorem exists_signedText {plus : Bool} (signed : plus = true → 0 ≤ power)
    (ends : ∀ c ∈ rest.head?, isDigit c = false) :
    ∃ sign digits, (match Written.signedText plus power ++ rest with
        | '+' :: after => ([], after)
        | '-' :: after => (['-'], after)
        | _ => ([], Written.signedText plus power ++ rest)) = (sign, digits) ∧
      exponent? (sign ++ digits.takeWhile isDigit) = some power ∧ digits.dropWhile isDigit = rest := by
  have digits : ∀ c ∈ (toString power.natAbs).toList, isDigit c = true := fun _ => isDigit_of_mem_toString
  have run := takeWhile_run digits ends
  have behind := dropWhile_run digits ends
  have read : exponent? ((if power < 0 then ['-'] else []) ++ (toString power.natAbs).toList) = some power := by
    rw [← toList_toString_int]
    exact @exponent?_signedText false power (by simp)
  cases plus with
  | true =>
    have above := Int.not_lt.mpr (signed rfl)
    rw [if_neg above] at read
    refine ⟨[], (toString power.natAbs).toList ++ rest, ?_, run.symm ▸ read, behind⟩
    rw [Written.signedText, toList_toString_int, if_neg above]
    rfl
  | false =>
    have text : Written.signedText false power = (if power < 0 then ['-'] else []) ++ (toString power.natAbs).toList :=
      toList_toString_int power
    rw [text]
    by_cases below : power < 0
    · rw [if_pos below] at read ⊢
      exact ⟨['-'], (toString power.natAbs).toList ++ rest, rfl, run.symm ▸ read, behind⟩
    · rw [if_neg below, List.nil_append] at read
      rw [if_neg below, List.nil_append]
      refine ⟨[], (toString power.natAbs).toList ++ rest, ?_, run.symm ▸ read, behind⟩
      obtain ⟨c, more, whole⟩ := List.exists_cons_of_ne_nil (toList_toString_ne_nil (n := power.natAbs))
      have digit : isDigit c = true := isDigit_of_mem_toString (by rw [whole]; exact List.mem_cons_self)
      rw [whole, List.cons_append]
      split
      · next same =>
        rw [(List.cons.inj same).1] at digit
        cases digit
      · next same =>
        rw [(List.cons.inj same).1] at digit
        cases digit
      · rfl

/-- A number with a fraction and without an exponent is no integer. -/
theorem plain_fraction (filled : fraction ≠ []) : readNumber.plain negative whole fraction kept rest =
    (kept.double? negative 0).map fun y => (.real y, rest) := by
  have empty : fraction.isEmpty = false := List.isEmpty_eq_false_iff.mpr filled
  unfold readNumber.plain
  simp only [empty, Bool.false_and, Bool.false_eq_true, if_false, Option.bind_eq_bind]
  cases kept.double? negative 0 <;> rfl

variable (written : Written)

/-- What stands behind the digits of a decimal is its exponent, if there is one, and then what the number ends before. -/
theorem readMark (real : written.exponent = none → fraction ≠ []) (ends : EndsNumber rest) :
    (match written.mark ++ rest with
      | mark :: more =>
        if mark == 'e' || mark == 'E' then
          match match more with
            | '+' :: after => ([], after)
            | '-' :: after => (['-'], after)
            | _ => ([], more) with
          | (sign, digits) => do
            let power ← exponent? (sign ++ digits.takeWhile isDigit)
            let value ← kept.double? negative power
            some (Json.real value, digits.dropWhile isDigit)
        else readNumber.plain negative written.whole fraction kept (written.mark ++ rest)
      | [] => readNumber.plain negative written.whole fraction kept (written.mark ++ rest)) =
      (kept.double? negative written.scale).map fun y => (.real y, rest) := by
  unfold Written.mark Written.scale
  cases same : written.exponent with
  | none =>
    simp only [List.nil_append, plain_fraction (real same), Option.map_none, Option.getD_none]
    cases rest with
    | nil => rfl
    | cons c rest =>
      obtain ⟨-, -, lower, upper⟩ := ends c rfl
      simp [lower, upper]
  | some pair =>
    obtain ⟨plus, power⟩ := pair
    obtain ⟨sign, digits, split, read, after⟩ := @exists_signedText rest power plus
      (fun plus => written.signed power (by rw [same, plus])) fun c first => (ends c first).1
    simp only [List.cons_append, beq_self_eq_true, Bool.true_or, if_true, split, read, after, Option.map_some,
      Option.getD_some, Option.bind_eq_bind, Option.bind_some]
    cases kept.double? negative power <;> rfl

/-- A written decimal is read as its kept digits under its exponent, whatever stands behind it. -/
theorem readNumber_written (negative : Bool) (ends : EndsNumber rest) :
    readNumber ((if negative then ['-'] else []) ++ (written.text ++ rest)) =
      (written.kept.double? negative written.scale).map fun y => (.real y, rest) := by
  have signless : (written.text ++ rest).head? ≠ some '-' := by
    obtain ⟨c, first, digit⟩ := written.exists_digit
    exact signless_of_digit ⟨c, by rw [List.head?_append, first]; rfl, digit⟩
  have filled : written.whole.isEmpty = false := List.isEmpty_eq_false_iff.mpr written.filled
  have start : (written.whole.head? == some '0' && decide (1 < written.whole.length)) = false := by
    by_cases zero : written.whole.head? = some '0'
    · rw [written.leading zero]
      rfl
    · rw [beq_eq_false_iff_ne.mpr zero, Bool.false_and]
  have marked : ∀ c ∈ (written.mark ++ rest).head?, isDigit c = false ∧ c ≠ '.' := by
    unfold Written.mark
    split
    · exact fun c first => ⟨(ends c first).1, (ends c first).2.1⟩
    · simp
      decide
  have digitless : ∀ c ∈ (written.mark ++ rest).head?, isDigit c = false := fun c first => (marked c first).1
  unfold readNumber
  split
  next x sign body split =>
  obtain ⟨rfl, rfl⟩ := Prod.mk.inj (split.symm.trans (takeSign signless))
  by_cases pointed : written.fraction = []
  · have text : written.text ++ rest = written.whole ++ (written.mark ++ rest) := by simp [Written.text, pointed]
    have kept : written.kept = written.whole.foldl Significand.pushWhole {} := by
      rw [Written.kept, pointed]
      rfl
    have run := takeWhile_run written.wholeDigits digitless
    have after := dropWhile_run written.wholeDigits digitless
    rw [text, kept]
    simp only [run, after, start, filled, Bool.decide_eq_true, Bool.or_false, Bool.false_eq_true, if_false]
    split
    next more same =>
      rw [same] at marked
      exact absurd rfl (marked '.' rfl).2
    · exact readMark written (fun none => absurd (written.real.resolve_left (· pointed)) (by simp [none])) ends
  · have empty : written.fraction.isEmpty = false := List.isEmpty_eq_false_iff.mpr pointed
    have text : written.text ++ rest = written.whole ++ '.' :: (written.fraction ++ (written.mark ++ rest)) := by
      simp [Written.text, pointed]
    have kept : written.kept = written.fraction.foldl Significand.pushFraction
        { written.whole.foldl Significand.pushWhole {} with full := false } := by
      rw [Written.kept, empty]
      rfl
    have point : ∀ c ∈ ('.' :: (written.fraction ++ (written.mark ++ rest))).head?, isDigit c = false :=
      fun c first => by
        obtain rfl : '.' = c := Option.some.inj first
        rfl
    have run := takeWhile_run written.wholeDigits point
    have more := dropWhile_run written.wholeDigits point
    have digits := takeWhile_run written.fractionDigits digitless
    have after := dropWhile_run written.fractionDigits digitless
    rw [text, kept]
    simp only [run, more, start, filled, digits, after, empty, Bool.decide_eq_true, Bool.or_false, Bool.false_eq_true,
      if_false, Option.bind_eq_bind, Option.bind_some]
    exact readMark written (fun _ => pointed) ends

/-- The text of a real double in normal form is read alike whatever stands behind it. -/
theorem scans_of_normal (real : x.isFinite = true) (normal : x.IsNormal) : Scans x := by
  cases x with
  | infinite | notANumber => cases real
  | finite negative mantissa exponent =>
    obtain ⟨written, text, -⟩ := exists_written_text Layout.json normal
    have same : (realText (.finite negative mantissa exponent)).toList =
        (if negative then ['-'] else []) ++ written.text := text
    obtain ⟨c, first, digit⟩ := written.exists_digit
    have alone := readNumber_written written negative endsNumber_nil
    rw [List.append_nil, ← same] at alone
    have reread : rereadDouble (.finite negative mantissa exponent) = written.kept.double? negative written.scale := by
      rw [rereadDouble, alone]
      cases written.kept.double? negative written.scale <;> rfl
    refine ⟨?_, fun rest ends => ?_⟩
    · rw [same]
      cases negative with
      | true => exact ⟨'-', rfl, .inr rfl⟩
      | false => exact ⟨c, first, .inl digit⟩
    · rw [reread, same, List.append_assoc, readNumber_written written negative ends]

/-- What is read of the text of a double is a number of a document. -/
theorem isNumeral_of_rereadDouble {y : Double} (read : rereadDouble x = some y) : (real y).IsNumeral := by
  unfold rereadDouble at read
  split at read
  next scanned =>
    cases read
    exact isNumeral_of_readNumber scanned
  · cases read

/-- A number that is read from its text as the same number. -/
def IsReread : Json → Prop
  | real x => ∃ y, rereadDouble x = some y ∧ x.same y = true
  | _ => True

theorem keys_rereadFields {fields read : List (String × Json)} (written : rereadFields fields = some read) :
    Dict.keys read = Dict.keys fields := by
  induction fields generalizing read with
  | nil =>
    cases written
    rfl
  | cons field rest ih =>
    obtain ⟨value, -, behind⟩ := Option.bind_eq_some_iff.mp written
    obtain ⟨more, others, rfl⟩ := Option.map_eq_some_iff.mp behind
    exact congrArg (field.1 :: ·) (ih others)

mutual
/-- The text of a canonical value is read as a canonical value. -/
theorem Canonical.reread : ∀ {value read : Json}, value.Canonical → value.reread = some read → read.Canonical
  | .null, _, canonical, same | .bool _, _, canonical, same | .string _, _, canonical, same
  | .int _, _, canonical, same => by
    cases same
    exact canonical
  | .real _, _, _, same => by
    obtain ⟨y, read, rfl⟩ := Option.map_eq_some_iff.mp same
    exact isNumeral_of_rereadDouble read
  | .array _, _, canonical, same => by
    obtain ⟨items, read, rfl⟩ := Option.map_eq_some_iff.mp same
    exact CanonicalItems.reread canonical read
  | .object _, _, canonical, same => by
    obtain ⟨fields, read, rfl⟩ := Option.map_eq_some_iff.mp same
    refine ⟨List.pairwise_map.mp ?_, CanonicalFields.reread canonical.2 read⟩
    have ordered := List.pairwise_map.mpr canonical.1
    rwa [← Dict.keys, ← keys_rereadFields read] at ordered

theorem CanonicalItems.reread : ∀ {items read : List Json}, CanonicalItems items → rereadItems items = some read →
    CanonicalItems read
  | [], _, _, same => by
    cases same
    trivial
  | _ :: _, _, canonical, same => by
    obtain ⟨first, own, behind⟩ := Option.bind_eq_some_iff.mp same
    obtain ⟨rest, others, rfl⟩ := Option.map_eq_some_iff.mp behind
    exact ⟨canonical.1.reread own, CanonicalItems.reread canonical.2 others⟩

theorem CanonicalFields.reread : ∀ {fields read : List (String × Json)}, CanonicalFields fields →
    rereadFields fields = some read → CanonicalFields read
  | [], _, _, same => by
    cases same
    trivial
  | (_, _) :: _, _, canonical, same => by
    obtain ⟨first, own, behind⟩ := Option.bind_eq_some_iff.mp same
    obtain ⟨rest, others, rfl⟩ := Option.map_eq_some_iff.mp behind
    exact ⟨canonical.1.reread own, CanonicalFields.reread canonical.2 others⟩
end

mutual
/-- The text of a value is read as the same value where each of its numbers is. -/
theorem exists_reread_iff : ∀ value : Json,
    (∃ read, value.reread = some read ∧ value.same read = true) ↔ value.Every IsReread
  | .null => iff_of_true ⟨.null, rfl, rfl⟩ trivial
  | .bool b => iff_of_true ⟨.bool b, rfl, by simp [same]⟩ trivial
  | .int n => iff_of_true ⟨.int n, rfl, by simp [same]⟩ trivial
  | .string text => iff_of_true ⟨.string text, rfl, by simp [same]⟩ trivial
  | .real x => by
    constructor
    · rintro ⟨_, read, equal⟩
      obtain ⟨y, scanned, rfl⟩ := Option.map_eq_some_iff.mp read
      exact ⟨y, scanned, by rwa [same] at equal⟩
    · rintro ⟨y, scanned, equal⟩
      exact ⟨.real y, by rw [reread, scanned]; rfl, by rwa [same]⟩
  | .array items => by
    rw [Every, ← exists_rereadItems_iff items]
    constructor
    · rintro ⟨_, read, equal⟩
      obtain ⟨others, scanned, rfl⟩ := Option.map_eq_some_iff.mp read
      exact ⟨others, scanned, by rwa [same] at equal⟩
    · rintro ⟨others, scanned, equal⟩
      exact ⟨.array others, by rw [reread, scanned]; rfl, by rwa [same]⟩
  | .object fields => by
    rw [Every, ← exists_rereadFields_iff fields]
    constructor
    · rintro ⟨_, read, equal⟩
      obtain ⟨others, scanned, rfl⟩ := Option.map_eq_some_iff.mp read
      exact ⟨others, scanned, by rwa [same] at equal⟩
    · rintro ⟨others, scanned, equal⟩
      exact ⟨.object others, by rw [reread, scanned]; rfl, by rwa [same]⟩

theorem exists_rereadItems_iff : ∀ items : List Json,
    (∃ read, rereadItems items = some read ∧ sameItems items read = true) ↔ EveryItem IsReread items
  | [] => iff_of_true ⟨[], rfl, rfl⟩ trivial
  | item :: rest => by
    rw [EveryItem, ← exists_reread_iff item, ← exists_rereadItems_iff rest]
    constructor
    · rintro ⟨_, read, equal⟩
      obtain ⟨first, own, behind⟩ := Option.bind_eq_some_iff.mp read
      obtain ⟨more, others, rfl⟩ := Option.map_eq_some_iff.mp behind
      rw [sameItems, Bool.and_eq_true] at equal
      exact ⟨⟨first, own, equal.1⟩, more, others, equal.2⟩
    · rintro ⟨⟨first, own, equal⟩, more, others, alike⟩
      exact ⟨first :: more, by rw [rereadItems, own, others]; rfl, by rw [sameItems, equal, alike]; rfl⟩

theorem exists_rereadFields_iff : ∀ fields : List (String × Json),
    (∃ read, rereadFields fields = some read ∧ sameFields fields read = true) ↔ EveryField IsReread fields
  | [] => iff_of_true ⟨[], rfl, rfl⟩ trivial
  | (name, value) :: rest => by
    rw [EveryField, ← exists_reread_iff value, ← exists_rereadFields_iff rest]
    constructor
    · rintro ⟨_, read, equal⟩
      obtain ⟨first, own, behind⟩ := Option.bind_eq_some_iff.mp read
      obtain ⟨more, others, rfl⟩ := Option.map_eq_some_iff.mp behind
      rw [sameFields, beq_self_eq_true, Bool.true_and, Bool.and_eq_true] at equal
      exact ⟨⟨first, own, equal.1⟩, more, others, equal.2⟩
    · rintro ⟨⟨first, own, equal⟩, more, others, alike⟩
      refine ⟨(name, first) :: more, by rw [rereadFields, own, others]; rfl, ?_⟩
      rw [sameFields, beq_self_eq_true, equal, alike]
      rfl
end

mutual
/-- The numbers of a canonical value are numbers of documents. -/
theorem Canonical.every {holds : Json → Prop} (each : ∀ {number : Json}, number.IsNumeral → holds number) :
    ∀ {value : Json}, value.Canonical → value.Every holds
  | .null, _ | .bool _, _ | .string _, _ => trivial
  | .int n, canonical => each (show (int n).IsNumeral from canonical)
  | .real x, canonical => each (show (real x).IsNumeral from canonical)
  | .array _, canonical => CanonicalItems.every each canonical
  | .object _, canonical => CanonicalFields.every each canonical.2

theorem CanonicalItems.every {holds : Json → Prop} (each : ∀ {number : Json}, number.IsNumeral → holds number) :
    ∀ {items : List Json}, CanonicalItems items → EveryItem holds items
  | [], _ => trivial
  | _ :: _, canonical => ⟨canonical.1.every each, CanonicalItems.every each canonical.2⟩

theorem CanonicalFields.every {holds : Json → Prop} (each : ∀ {number : Json}, number.IsNumeral → holds number) :
    ∀ {fields : List (String × Json)}, CanonicalFields fields → EveryField holds fields
  | [], _ => trivial
  | (_, _) :: _, canonical => ⟨canonical.1.every each, CanonicalFields.every each canonical.2⟩
end

theorem IsNumeral.scanned {number : Json} (numeral : number.IsNumeral) : number.IsScanned := by
  cases number with
  | int => exact numeral
  | real x => exact scans_of_normal numeral.1 numeral.2
  | null | bool | string | array | object => cases numeral

/-- The compact text of a canonical value is read as a document, with every double as its text is read. -/
theorem parse?_compact {value : Json} (canonical : value.Canonical) (deep : value.depth ≤ depthLimit) :
    parse? (compact value) = value.reread := by
  have read : read? (compact value ++ "") = value.reread :=
    read?_compact_scanned (canonical.every IsNumeral.scanned) deep (by simp)
  rw [String.append_empty] at read
  rw [parse?, read]
  cases written : value.reread with
  | none => rfl
  | some found => rw [Option.map_some, (canonical.reread written).canonical_eq]

end Json
end Runbook

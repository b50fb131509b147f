import Runbook.Json.Printer
import Runbook.Json.Reader
import Runbook.Proofs.Text.Decimal

/-!
The text of JSON values. The quoted form of a text is read back as that text, whatever characters it holds, and it is the
text between quotes just where no character needs an escape.
-/

namespace Runbook.Json

open Runbook.Text

variable {rest : List Char}

/-- An escape of four hexadecimal digits that is no half of a pair writes one character. -/
theorem readString_unit {a b c d : Char} {unit : Nat} (value : codeUnit? a b c d = some unit) (low : unit < 0xd800) :
    readString ('\\' :: 'u' :: a :: b :: c :: d :: rest) =
      (readString rest).map fun read => (Char.ofNat unit :: read.1, read.2) := by
  have notHigh : ¬(0xd800 ≤ unit) := by omega
  have notLow : ¬(0xdc00 ≤ unit) := by omega
  by_cases pair : ∃ e f g h more, rest = '\\' :: 'u' :: e :: f :: g :: h :: more
  · obtain ⟨e, f, g, h, more, rfl⟩ := pair
    rw [readString, value]
    simp only [Option.bind_eq_bind, Option.bind_some, notHigh, notLow, decide_false, Bool.false_and,
      Bool.false_eq_true, if_false]
    cases readString ('\\' :: 'u' :: e :: f :: g :: h :: more) <;> rfl
  · rw [readString.eq_4 _ _ _ _ _ (fun e f g h more same => pair ⟨e, f, g, h, more, same⟩), value]
    simp only [Option.bind_eq_bind, Option.bind_some, notHigh, decide_false, Bool.false_and,
      Bool.false_eq_true, if_false]
    cases readString rest <;> rfl

/-- An escape of one letter writes the character that the letter stands for. -/
theorem readString_simple {mark c : Char} (apart : mark ≠ 'u') (value : simpleEscape? mark = some c) :
    readString ('\\' :: mark :: rest) = (readString rest).map fun read => (c :: read.1, read.2) := by
  rw [readString.eq_5 _ _ (fun _ _ _ _ _ _ _ _ _ same _ => apart same) (fun _ _ _ _ _ same _ => apart same), value]
  cases readString rest <;> rfl

/-- A character that needs no escape stands for itself. -/
theorem readString_plain {c : Char} (quote : c ≠ '"') (slash : c ≠ '\\') (visible : ¬c.toNat < 0x20) :
    readString (c :: rest) = (readString rest).map fun read => (c :: read.1, read.2) := by
  rw [readString.eq_6 _ _ quote (fun _ _ _ _ _ _ _ _ _ same => absurd same slash)
    (fun _ _ _ _ _ same => absurd same slash) (fun _ _ same => absurd same slash)]
  simp only [visible, slash, decide_false, beq_iff_eq, Bool.false_or, if_false]
  cases readString rest <;> rfl

/-- What holds for every code of a control character holds for every control character. -/
theorem of_control {holds : Char → Prop} (each : ∀ n < 0x20, holds (Char.ofNat n)) {c : Char} (low : c.toNat < 0x20) :
    holds c := by
  have self := each c.toNat low
  rwa [Char.ofNat_toNat] at self

/-- The control characters that have an escape of one letter. -/
def lettered : List Nat := [0x08, 0x09, 0x0a, 0x0c, 0x0d]

/-- Every other control character is escaped by its code. -/
theorem escaped_control : ∀ n < 0x20, n ∉ lettered →
    (escaped (Char.ofNat n)).toList = ['\\', 'u', '0', '0', Nat.digitChar (n / 16), Nat.digitChar (n % 16)] ∧
      codeUnit? '0' '0' (Nat.digitChar (n / 16)) (Nat.digitChar (n % 16)) = some n := by
  decide

/-- An escaped character is read back. -/
theorem readString_escaped (c : Char) (rest : List Char) :
    readString ((escaped c).toList ++ rest) = (readString rest).map fun read => (c :: read.1, read.2) := by
  by_cases coded : c.toNat < 0x20 ∧ c.toNat ∉ lettered
  · obtain ⟨written, value⟩ := escaped_control c.toNat coded.1 coded.2
    rw [Char.ofNat_toNat] at written
    rw [written]
    simp only [List.cons_append, List.nil_append]
    rw [readString_unit value (by omega), Char.ofNat_toNat]
  · unfold escaped
    split
    case h_8 quote slash feed ret tab back form =>
      have visible : ¬c.toNat < 0x20 := fun control => coded ⟨control, fun letter => by
        have self := Char.ofNat_toNat c
        simp only [lettered, List.mem_cons, List.not_mem_nil, or_false] at letter
        rcases letter with code | code | code | code | code <;> rw [code] at self
        · exact back self.symm
        · exact tab self.symm
        · exact feed self.symm
        · exact form self.symm
        · exact ret self.symm⟩
      have single : c.toString.toList = [c] := String.toList_singleton c
      rw [if_neg visible, single]
      exact readString_plain quote slash visible
    all_goals exact readString_simple (by decide) (by decide)

/-- The text of a quoted string between its quotes is read up to the closing one. -/
theorem readString_quoted (text rest : List Char) :
    readString (text.flatMap (fun c => (escaped c).toList) ++ '"' :: rest) = some (text, rest) := by
  induction text with
  | nil => rw [List.flatMap_nil, List.nil_append, readString]
  | cons c text ih => rw [List.flatMap_cons, List.append_assoc, readString_escaped, ih, Option.map_some]

theorem toList_quote (text : String) :
    (quote text).toList = '"' :: text.toList.flatMap (fun c => (escaped c).toList) ++ ['"'] := by
  have written (done : String) (more : List Char) :
      (more.foldl (fun written c => written ++ escaped c) done).toList =
        done.toList ++ more.flatMap fun c => (escaped c).toList := by
    induction more generalizing done with
    | nil => simp
    | cons c more ih => rw [List.foldl_cons, ih, String.toList_append, List.flatMap_cons, List.append_assoc]
  simp only [quote, String.toList_append, written]
  rfl

/-- A character that stands in JSON text as it is. -/
def IsPlain (c : Char) : Prop := 0x20 ≤ c.toNat ∧ c ≠ '"' ∧ c ≠ '\\'

instance : DecidablePred IsPlain := fun _ => inferInstanceAs (Decidable (_ ∧ _ ∧ _))

theorem toList_escaped_of_plain {c : Char} (plain : IsPlain c) : (escaped c).toList = [c] := by
  unfold escaped
  split
  case h_8 =>
    rw [if_neg (Nat.not_lt.mpr plain.1)]
    exact String.toList_singleton c
  all_goals exact absurd plain (by decide)

/-- Every other character is written with a mark in front. -/
theorem two_le_length_escaped {c : Char} (special : ¬IsPlain c) : 2 ≤ (escaped c).toList.length := by
  by_cases low : c.toNat < 0x20
  · exact @of_control (fun c => 2 ≤ (escaped c).toList.length) (by decide) c low
  · have mark : c = '"' ∨ c = '\\' :=
      Decidable.byContradiction fun other => special ⟨Nat.not_lt.mp low, not_or.mp other⟩
    rcases mark with rfl | rfl <;> decide

theorem length_le_flatMap_escaped (text : List Char) :
    text.length ≤ (text.flatMap fun c => (escaped c).toList).length := by
  induction text with
  | nil => exact Nat.le_refl 0
  | cons c rest ih =>
    have one : 1 ≤ (escaped c).toList.length := by
      by_cases plain : IsPlain c
      · rw [toList_escaped_of_plain plain]
        exact Nat.le_refl 1
      · exact Nat.le_of_succ_le (two_le_length_escaped plain)
    rw [List.flatMap_cons, List.length_append, List.length_cons]
    omega

/-- A text is written as it is where each of its characters is. -/
theorem flatMap_escaped_eq_self_iff {text : List Char} :
    (text.flatMap fun c => (escaped c).toList) = text ↔ ∀ c ∈ text, IsPlain c := by
  induction text with
  | nil => simp
  | cons c rest ih =>
    rw [List.forall_mem_cons, List.flatMap_cons]
    by_cases plain : IsPlain c
    · rw [toList_escaped_of_plain plain, List.singleton_append, List.cons.injEq, ih]
      simp [plain]
    · refine iff_of_false (fun same => ?_) fun each => plain each.1
      have size := congrArg List.length same
      have more := two_le_length_escaped plain
      have others := length_le_flatMap_escaped rest
      rw [List.length_append, List.length_cons] at size
      omega

end Runbook.Json

/-!
Compact JSON text stands on one line: whatever texts a value holds, no control character is left in what is written of
it.
-/

namespace Runbook

open Runbook.Text

/-- A text without control characters. -/
def Text.Visible (text : String) : Prop := ∀ c ∈ text.toList, 0x20 ≤ c.toNat

instance (text : String) : Decidable (Text.Visible text) :=
  decidable_of_iff (text.toList.all (0x20 ≤ ·.toNat) = true)
    (by simp only [List.all_eq_true, decide_eq_true_eq, Visible])

namespace Text

variable {first second text : String}

@[simp] theorem visible_append_iff : Visible (first ++ second) ↔ Visible first ∧ Visible second := by
  simp only [Visible, String.toList_append, List.mem_append, or_imp, forall_and]

theorem Visible.not_mem (visible : Visible text) {c : Char} (control : c.toNat < 0x20) : c ∉ text.toList := by
  intro member
  have := visible c member
  omega

theorem visible_of_isDigit (digits : ∀ c ∈ text.toList, isDigit c = true) : Visible text := by
  intro c member
  have := isDigit_iff.mp (digits c member)
  omega

theorem visible_toString_nat (n : Nat) : Visible (toString n) :=
  visible_of_isDigit fun _ => isDigit_of_mem_toString

theorem visible_toString_int (n : Int) : Visible (toString n) := by
  intro c member
  rcases isDigit_or_minus member with digit | rfl
  · have := isDigit_iff.mp digit
    omega
  · decide

theorem visible_pushn {c : Char} (visible : Visible text) (apart : 0x20 ≤ c.toNat) (n : Nat) :
    Visible (text.pushn c n) := by
  induction n with
  | zero => exact visible
  | succ n ih =>
    intro d member
    have pushed : text.pushn c (n + 1) = (text.pushn c n).push c := rfl
    rw [pushed, String.toList_push, List.mem_append] at member
    rcases member with before | last
    · exact ih d before
    · obtain rfl := List.mem_singleton.mp last
      exact apart

end Text

namespace Double.Layout

/-- Digits, a point, signs and the mark of an exponent are all that is written of a decimal. -/
theorem visible_decimal (layout : Layout) (value : Decimal) : Visible (layout.decimal value) := by
  have digits := visible_toString_nat value.coefficient
  have part {chars : List Char} (inside : chars ⊆ (toString value.coefficient).toList) :
      Visible (String.ofList chars) := by
    intro c member
    rw [String.toList_ofList] at member
    exact digits c (inside member)
  have front (n : Nat) := part (List.take_subset n (toString value.coefficient).toList)
  have back (n : Nat) := part (List.drop_subset n (toString value.coefficient).toList)
  have zeros (n : Nat) : Visible ("".pushn '0' n) := visible_pushn (by decide) (by decide) n
  have exponent := visible_toString_int (((toString value.coefficient).length : Int) + value.power - 1)
  unfold decimal
  dsimp only
  split
  · split
    · simp only [visible_append_iff]
      exact ⟨⟨by decide, zeros _⟩, digits⟩
    · split
      · simp only [visible_append_iff]
        exact ⟨⟨digits, zeros _⟩, by decide⟩
      · simp only [visible_append_iff]
        exact ⟨⟨front _, by decide⟩, back _⟩
  · simp only [visible_append_iff]
    refine ⟨⟨⟨⟨front _, ?_⟩, by decide⟩, ?_⟩, exponent⟩
    · split
      · decide
      · exact visible_append_iff.mpr ⟨by decide, back _⟩
    · split <;> decide

end Double.Layout

namespace Json

theorem visible_realText (x : Double) : Visible (realText x) := by
  unfold realText Double.Layout.text
  cases x with
  | finite negative mantissa exponent =>
    apply visible_append_iff.mpr
    constructor
    · split <;> decide
    · split
      · decide
      · exact Double.Layout.visible_decimal _ _
  | infinite negative =>
    have word : Visible Double.Layout.json.infinity := by decide
    cases negative <;> exact visible_append_iff.mpr ⟨by decide, word⟩
  | notANumber negative =>
    have word : Visible Double.Layout.json.notANumber := by decide
    exact word

/-- An escape is visible whatever character it stands for. -/
theorem visible_escaped (c : Char) : Visible (escaped c) := by
  by_cases low : c.toNat < 0x20
  · exact @of_control (fun c => Visible (escaped c)) (by decide) c low
  · unfold escaped
    split
    case h_8 =>
      rw [if_neg low]
      intro d member
      have single : c.toString.toList = [c] := String.toList_singleton c
      rw [single] at member
      obtain rfl := List.mem_singleton.mp member
      omega
    all_goals decide

theorem visible_quote (text : String) : Visible (quote text) := by
  have written (done : String) (chars : List Char) (before : Visible done) :
      Visible (chars.foldl (fun written c => written ++ escaped c) done) := by
    induction chars generalizing done with
    | nil => exact before
    | cons c rest ih =>
      apply ih
      exact visible_append_iff.mpr ⟨before, visible_escaped c⟩
  unfold quote
  simp only [visible_append_iff]
  exact ⟨⟨by decide, written "" text.toList (by decide)⟩, by decide⟩

mutual
/-- The compact text of a value stands on one line. -/
theorem visible_compact : ∀ value : Json, Visible (compact value)
  | .null | .bool true | .bool false => by decide
  | .int n => visible_toString_int n
  | .real x => visible_realText x
  | .string text => visible_quote text
  | .array items => by
    simp only [compact, visible_append_iff]
    exact ⟨⟨by decide, visible_compactItems items⟩, by decide⟩
  | .object fields => by
    simp only [compact, visible_append_iff]
    exact ⟨⟨by decide, visible_compactFields fields⟩, by decide⟩

theorem visible_compactItems : ∀ items : List Json, Visible (compactItems items)
  | [] => by decide
  | [item] => visible_compact item
  | item :: next :: rest => by
    simp only [compactItems, visible_append_iff]
    exact ⟨⟨visible_compact item, by decide⟩, visible_compactItems (next :: rest)⟩

theorem visible_compactFields : ∀ fields : List (String × Json), Visible (compactFields fields)
  | [] => by decide
  | [(name, value)] => by
    simp only [compactFields, visible_append_iff]
    exact ⟨⟨visible_quote name, by decide⟩, visible_compact value⟩
  | (name, value) :: next :: rest => by
    simp only [compactFields, visible_append_iff]
    exact ⟨⟨⟨⟨visible_quote name, by decide⟩, visible_compact value⟩, by decide⟩, visible_compactFields (next :: rest)⟩
end

end Json
end Runbook

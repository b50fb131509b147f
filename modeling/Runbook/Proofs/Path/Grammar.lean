import Runbook.Path.Basic
import Runbook.Proofs.Control
import Runbook.Proofs.Text.Decimal
import Runbook.Proofs.Text.Lines

/-!
The grammar of paths. A path without the blanks around it is empty, or it is made of parts between dots: keys, subscripts,
and keys with subscripts. The reader of paths accepts exactly the texts of this grammar, and gives the segments that they
write.
-/

namespace Runbook.Path

open Runbook.Text

/-- A decimal: digits, with a plus sign in front of them or not. -/
inductive IsDecimal : List Char → Nat → Prop
  | plain {digits : List Char} (filled : digits ≠ []) (all : ∀ c ∈ digits, isDigit c = true) :
      IsDecimal digits (decimalValue digits)
  | signed {digits : List Char} (filled : digits ≠ []) (all : ∀ c ∈ digits, isDigit c = true) :
      IsDecimal ('+' :: digits) (decimalValue digits)

/-- A subscript: a decimal that is a position, between brackets and blanks. -/
inductive IsSubscript : List Char → Nat → Prop
  | bracketed {inside : List Char} {position : Nat} (decimal : IsDecimal (trim inside) position)
      (fits : position < positionLimit) : IsSubscript ('[' :: (inside ++ [']'])) position

/-- Subscripts one after another. -/
inductive AreSubscripts : List Char → List Segment → Prop
  | nil : AreSubscripts [] []
  | cons {text rest : List Char} {position : Nat} {segments : List Segment} (first : IsSubscript text position)
      (more : AreSubscripts rest segments) : AreSubscripts (text ++ rest) (.index position :: segments)

/-- A key: a text that is not empty and holds neither dots nor opening brackets. -/
structure IsKey (key : List Char) : Prop where
  filled : key ≠ []
  dotless : '.' ∉ key
  bracketless : '[' ∉ key

instance (key : List Char) : Decidable (IsKey key) :=
  decidable_of_iff (key ≠ [] ∧ '.' ∉ key ∧ '[' ∉ key)
    ⟨fun ⟨filled, dotless, bracketless⟩ => ⟨filled, dotless, bracketless⟩,
      fun isKey => ⟨isKey.filled, isKey.dotless, isKey.bracketless⟩⟩

/-- A part of a path, which is not empty: a key or none, and subscripts behind it. -/
inductive IsPart : List Char → List Segment → Prop
  | keyed {key rest : List Char} {segments : List Segment} (isKey : IsKey key)
      (subscripts : AreSubscripts rest segments) : IsPart (key ++ rest) (.key (String.ofList key) :: segments)
  | keyless {text : List Char} {segments : List Segment} (filled : text ≠ [])
      (subscripts : AreSubscripts text segments) : IsPart text segments

/-- A text writes segments: the empty text none, any other one those of its parts between dots. -/
inductive Writes : List Char → List Segment → Prop
  | empty : Writes [] []
  | dotted {parts : List (List Char)} {groups : List (List Segment)} (filled : parts ≠ [])
      (each : List.Forall₂ IsPart parts groups) : Writes (['.'].intercalate parts) groups.flatten

variable {text part : List Char} {position : Nat} {segments group : List Segment}

/-! Decimals and subscripts -/

theorem natural?_eq_some_iff : natural? text = some position ↔ IsDecimal text position := by
  have digits (text : List Char) : (!text.isEmpty && text.all isDigit) = true ↔
      text ≠ [] ∧ ∀ c ∈ text, isDigit c = true := by
    simp only [Bool.and_eq_true, Bool.not_eq_true', List.isEmpty_eq_false_iff, List.all_eq_true, ne_eq]
  have reads (text : List Char) : (if !text.isEmpty && text.all isDigit then some (decimalValue text) else none) =
      some position ↔ (text ≠ [] ∧ ∀ c ∈ text, isDigit c = true) ∧ decimalValue text = position := by
    rw [Option.ite_none_right_eq_some, digits, Option.some.injEq]
  unfold natural?
  split
  · next rest =>
    rw [reads]
    constructor
    · rintro ⟨⟨filled, all⟩, rfl⟩
      exact .signed filled all
    · intro decimal
      generalize whole : '+' :: rest = text at decimal
      cases decimal with
      | plain _ all =>
        subst whole
        exact absurd (all '+' List.mem_cons_self) (by decide)
      | signed filled all =>
        cases whole
        exact ⟨⟨filled, all⟩, rfl⟩
  · next unsigned =>
    rw [reads]
    constructor
    · rintro ⟨⟨filled, all⟩, rfl⟩
      exact .plain filled all
    · intro decimal
      cases decimal with
      | plain filled all => exact ⟨⟨filled, all⟩, rfl⟩
      | signed => exact absurd rfl (unsigned _)

theorem naturalBelow?_eq_some_iff {bound : Nat} :
    naturalBelow? bound text = some position ↔ IsDecimal text position ∧ position < bound := by
  rw [naturalBelow?, Option.filter_eq_some_iff, natural?_eq_some_iff, decide_eq_true_iff]

/-- What is no digit, no plus sign and no blank is not between the brackets of a subscript. -/
theorem IsDecimal.not_mem {inside : List Char} (decimal : IsDecimal (trim inside) position) {c : Char}
    (solid : isBlank c = false) (other : isDigit c = false) (unsigned : c ≠ '+') : c ∉ inside := by
  intro member
  have kept := mem_trim member solid
  generalize trim inside = digits at decimal kept
  cases decimal with
  | plain _ all =>
    rw [all c kept] at other
    cases other
  | signed _ all =>
    rcases List.mem_cons.mp kept with same | digit
    · exact unsigned same
    · rw [all c digit] at other
      cases other

theorem IsSubscript.exists_cons (subscript : IsSubscript text position) : ∃ rest, text = '[' :: rest := by
  cases subscript
  exact ⟨_, rfl⟩

theorem IsSubscript.dotless (subscript : IsSubscript text position) : '.' ∉ text := by
  cases subscript with
  | bracketed decimal => simpa using decimal.not_mem (c := '.') (by decide) (by decide) (by decide)

theorem AreSubscripts.head? (subscripts : AreSubscripts text segments) : ∀ c ∈ text.head?, c = '[' := by
  cases subscripts with
  | nil => simp
  | cons first =>
    obtain ⟨rest, rfl⟩ := first.exists_cons
    simp

theorem AreSubscripts.dotless (subscripts : AreSubscripts text segments) : '.' ∉ text := by
  induction subscripts with
  | nil => exact List.not_mem_nil
  | cons first _ ih => exact List.not_mem_append first.dotless ih

/-- What is read as subscripts is written as such, by induction on the fuel, which the text does not exhaust. -/
theorem readSubscripts_eq_ok_iff {fuel : Nat} (enough : text.length ≤ fuel) :
    readSubscripts fuel text = .ok segments ↔ AreSubscripts text segments := by
  induction fuel generalizing text segments with
  | zero =>
    obtain rfl := List.length_eq_zero_iff.mp (Nat.le_zero.mp enough)
    constructor
    · rintro ⟨⟩
      exact .nil
    · intro subscripts
      generalize none : [] = text at subscripts
      cases subscripts with
      | nil => rfl
      | cons first =>
        obtain ⟨rest, rfl⟩ := first.exists_cons
        cases none
  | succ fuel ih =>
    constructor
    · intro read
      cases text with
      | nil =>
        cases read
        exact .nil
      | cons c rest =>
        unfold readSubscripts at read
        split at read
        next none => cases none
        next none _ => cases none
        next spent text same whole =>
          cases whole
          split at read
          · cases read
          next inside after cut =>
          obtain ⟨rfl, -⟩ := eq_append_of_cut? cut
          split at read
          · cases read
          next position found =>
          obtain ⟨decimal, fits⟩ := naturalBelow?_eq_some_iff.mp found
          obtain ⟨more, later, whole⟩ := bind_eq_ok_iff.mp read
          cases whole
          cases same
          simp only [List.length_cons, List.length_append] at enough
          have front := AreSubscripts.cons (.bracketed decimal fits) ((ih (by omega)).mp later)
          simpa using front
        next => cases read
    · intro subscripts
      cases subscripts with
      | nil => rfl
      | @cons text rest position segments first more =>
        cases first with
        | @bracketed inside _ decimal fits =>
        have closed := decimal.not_mem (c := ']') (by decide) (by decide) (by decide)
        simp only [List.cons_append, List.length_cons, List.length_append, List.append_assoc] at enough ⊢
        have later := (@ih rest segments (by omega)).mpr more
        rw [readSubscripts, List.nil_append, cut?_append closed]
        simp only [naturalBelow?_eq_some_iff.mpr ⟨decimal, fits⟩, later]
        rfl

/-! Parts -/

theorem IsPart.filled (isPart : IsPart part group) : part ≠ [] := by
  cases isPart with
  | keyed isKey => simp [isKey.filled]
  | keyless filled => exact filled

theorem IsPart.dotless (isPart : IsPart part group) : '.' ∉ part := by
  cases isPart with
  | keyed isKey subscripts => exact List.not_mem_append isKey.dotless subscripts.dotless
  | keyless _ subscripts => exact subscripts.dotless

/-- What stands in front of the first bracket of a part is its key. -/
theorem readPart_append {key rest : List Char} (bracketless : '[' ∉ key) (filled : key ++ rest ≠ [])
    (subscripts : AreSubscripts rest segments) : readPart (key ++ rest) =
      .ok (if key.isEmpty then segments else .key (String.ofList key) :: segments) := by
  have goesOn : ∀ c ∈ key, (c != '[') = true := fun c member =>
    bne_iff_ne.mpr fun same => bracketless (same ▸ member)
  have stops : ∀ c ∈ rest.head?, (c != '[') = false := fun c first => by simp [subscripts.head? c first]
  have long : rest.length ≤ (key ++ rest).length := by simp
  have read := (readSubscripts_eq_ok_iff long).mpr subscripts
  unfold readPart
  rw [List.isEmpty_eq_false_iff.mpr filled, takeWhile_run goesOn stops, dropWhile_run goesOn stops, read]
  rfl

/-- What is read as a part is written as one. -/
theorem readPart_eq_ok_iff (dotless : '.' ∉ part) : readPart part = .ok group ↔ IsPart part group := by
  constructor
  · intro read
    have filled : part ≠ [] := by
      rintro rfl
      cases read
    have split : part.takeWhile (· != '[') ++ part.dropWhile (· != '[') = part := List.takeWhile_append_dropWhile
    have bracketless : '[' ∉ part.takeWhile (· != '[') := fun member =>
      absurd (List.mem_takeWhile_imp member) (by decide)
    unfold readPart at read
    rw [List.isEmpty_eq_false_iff.mpr filled] at read
    obtain ⟨subscripts, found, whole⟩ := bind_eq_ok_iff.mp read
    have shorter : (part.dropWhile (· != '[')).length ≤ part.length := (List.dropWhile_suffix _).length_le
    have written := (readSubscripts_eq_ok_iff shorter).mp found
    generalize part.takeWhile (· != '[') = key at split bracketless whole
    generalize part.dropWhile (· != '[') = rest at split written
    subst split
    cases key with
    | nil =>
      cases whole
      exact .keyless filled written
    | cons c key =>
      cases whole
      exact .keyed ⟨List.cons_ne_nil c key, fun dot => dotless (List.mem_append_left _ dot), bracketless⟩ written
  · intro isPart
    cases isPart with
    | keyed isKey subscripts =>
      rw [readPart_append isKey.bracketless (by simp [isKey.filled]) subscripts,
        List.isEmpty_eq_false_iff.mpr isKey.filled]
      rfl
    | keyless filled subscripts => exact readPart_append List.not_mem_nil filled subscripts

/-- Parts are read one by one. -/
theorem readParts_eq_ok_iff {parts : List (List Char)} (dotless : ∀ part ∈ parts, '.' ∉ part) :
    readParts parts = .ok segments ↔ ∃ groups, List.Forall₂ IsPart parts groups ∧ segments = groups.flatten := by
  induction parts generalizing segments with
  | nil =>
    constructor
    · rintro ⟨⟩
      exact ⟨[], .nil, rfl⟩
    · rintro ⟨groups, each, rfl⟩
      cases each
      rfl
  | cons part rest ih =>
    obtain ⟨own, others⟩ := List.forall_mem_cons.mp dotless
    constructor
    · intro read
      obtain ⟨first, here, read⟩ := bind_eq_ok_iff.mp read
      obtain ⟨more, later, whole⟩ := bind_eq_ok_iff.mp read
      cases whole
      obtain ⟨groups, each, rfl⟩ := (ih others).mp later
      exact ⟨first :: groups, .cons ((readPart_eq_ok_iff own).mp here) each, rfl⟩
    · rintro ⟨groups, each, rfl⟩
      cases each with
      | @cons _ first _ groups here each =>
        refine bind_eq_ok_iff.mpr ⟨first, (readPart_eq_ok_iff own).mpr here, bind_eq_ok_iff.mpr ⟨groups.flatten, ?_, rfl⟩⟩
        exact (ih others).mpr ⟨groups, each, rfl⟩

/-! Paths -/

theorem dotless_of_forall₂ {parts : List (List Char)} {groups : List (List Segment)}
    (each : List.Forall₂ IsPart parts groups) : ∀ part ∈ parts, '.' ∉ part := by
  induction each with
  | nil => simp
  | cons first _ ih => exact List.forall_mem_cons.mpr ⟨first.dotless, ih⟩

theorem intercalate_ne_nil {parts : List (List Char)} {groups : List (List Segment)} (filled : parts ≠ [])
    (each : List.Forall₂ IsPart parts groups) : ['.'].intercalate parts ≠ [] := by
  cases each with
  | nil => exact absurd rfl filled
  | @cons part _ rest _ first =>
    cases rest with
    | nil => simpa using first.filled
    | cons => simp [List.intercalate_cons_of_ne_nil]

/-- Parts between dots are read as the segments that they write. -/
theorem readParts_splitAt_eq_ok_iff (filled : text ≠ []) :
    readParts (splitAt '.' text) = .ok segments ↔ Writes text segments := by
  rw [readParts_eq_ok_iff fun part member => not_mem_of_mem_splitAt member]
  constructor
  · rintro ⟨groups, each, rfl⟩
    have whole : ['.'].intercalate (splitAt '.' text) = text := by rw [splitAt_eq_splitOn, List.intercalate_splitOn]
    have written := Writes.dotted (splitAt_ne_nil '.' text) each
    rwa [whole] at written
  · intro writes
    cases writes with
    | empty => exact absurd rfl filled
    | @dotted parts groups some each =>
      refine ⟨groups, ?_, rfl⟩
      rwa [splitAt_eq_splitOn, List.splitOn_intercalate '.' (dotless_of_forall₂ each) some]

/-- A path is read as segments just when its text without the blanks around it writes them. -/
theorem parse_eq_ok_iff {path : String} : parse path = .ok segments ↔ Writes (trim path.toList) segments := by
  rw [parse, mapError_eq_ok_iff, read]
  by_cases none : trim path.toList = []
  · rw [none]
    constructor
    · rintro ⟨⟩
      exact .empty
    · intro writes
      generalize same : [] = text at writes
      cases writes with
      | empty => rfl
      | dotted filled each => exact absurd same.symm (intercalate_ne_nil filled each)
  · rw [List.isEmpty_eq_false_iff.mpr none]
    exact readParts_splitAt_eq_ok_iff none

end Runbook.Path

import Runbook.Json.Reader
import Runbook.Proofs.Double.Grid
import Runbook.Proofs.Json.Parts

/-!
Numbers of JSON documents: however the numbers of a document are written, they are read as integers in range and as real
doubles in normal form, no deeper than the reader goes. So a document is canonical, and a value of it is the same as
itself.
-/

namespace Runbook.Json

open Runbook.Text

mutual
/-- Every double in a value is a real number. -/
def Finite : Json → Prop
  | real x => x.isFinite = true
  | array items => FiniteItems items
  | object fields => FiniteFields fields
  | _ => True

/-- Every item of a list is finite. -/
def FiniteItems : List Json → Prop
  | [] => True
  | item :: rest => Finite item ∧ FiniteItems rest

/-- Every field value of a list is finite. -/
def FiniteFields : List (String × Json) → Prop
  | [] => True
  | (_, value) :: rest => Finite value ∧ FiniteFields rest
end

theorem finiteItems_iff {items : List Json} : FiniteItems items ↔ ∀ item ∈ items, item.Finite := by
  induction items with
  | nil => simp [FiniteItems]
  | cons item rest ih => simp [FiniteItems, ih]

theorem finiteFields_iff {fields : List (String × Json)} : FiniteFields fields ↔ ∀ field ∈ fields, field.2.Finite := by
  induction fields with
  | nil => simp [FiniteFields]
  | cons field rest ih => simp [FiniteFields, ih]

theorem canonicalItems_iff {items : List Json} : CanonicalItems items ↔ ∀ item ∈ items, item.Canonical := by
  induction items with
  | nil => simp [CanonicalItems]
  | cons item rest ih => simp [CanonicalItems, ih]

theorem canonicalFields_iff {fields : List (String × Json)} :
    CanonicalFields fields ↔ ∀ field ∈ fields, field.2.Canonical := by
  induction fields with
  | nil => simp [CanonicalFields]
  | cons field rest ih => simp [CanonicalFields, ih]

theorem hereditary_finite : Hereditary Finite := ⟨finiteItems_iff.mp, finiteFields_iff.mp⟩

/-- A number as a document gives it: an integer in range, or a real double in normal form. -/
def IsNumeral : Json → Prop
  | int n => leastInt ≤ n ∧ n ≤ greatestInt
  | real x => x.isFinite = true ∧ x.IsNormal
  | _ => False

/-- The only number of a number is itself. -/
theorem IsNumeral.every {value : Json} (numeral : value.IsNumeral) : value.Every IsNumeral ∧ value.depth = 0 := by
  cases value with
  | int | real => exact ⟨numeral, rfl⟩
  | null | bool | string | array | object => cases numeral

section Number

variable {kept : Significand} {digits : List Char} {value : Double} {bound steps significand : Nat} {power : Int}

theorem Significand.value_pushWhole (small : kept.value < 2 ^ 64) (c : Char) : (kept.pushWhole c).value < 2 ^ 64 := by
  unfold Significand.pushWhole
  split
  next fits => exact of_decide_eq_true (Bool.and_eq_true_iff.mp fits).2
  · exact small

theorem Significand.value_pushFraction (small : kept.value < 2 ^ 64) (c : Char) :
    (kept.pushFraction c).value < 2 ^ 64 := by
  unfold Significand.pushFraction
  split
  next fits => exact of_decide_eq_true (Bool.and_eq_true_iff.mp fits).2
  · exact small

/-- However many digits are read, the digits that are kept fit 64 bits. -/
theorem Significand.value_foldl {push : Significand → Char → Significand}
    (keeps : ∀ {kept : Significand}, kept.value < 2 ^ 64 → ∀ c, (push kept c).value < 2 ^ 64)
    (small : kept.value < 2 ^ 64) (digits : List Char) : (digits.foldl push kept).value < 2 ^ 64 := by
  induction digits generalizing kept with
  | nil => exact small
  | cons c rest ih => exact ih (keeps small c)

/-- Lowering a double that is in range leaves a real number. -/
theorem isFinite_lowered (within : Double.Within bound value) (small : bound + steps ≤ 900) (power : Nat) :
    (lowered value steps power).isFinite = true := by
  have divided (power : Nat) (small : bound ≤ 900) := within.div (Double.large_ofDecimal power) small
  induction steps generalizing bound value power with
  | zero => exact (divided power small).isFinite
  | succ steps ih =>
    unfold lowered
    split
    · exact (divided power (by omega)).isFinite
    · split
      · exact within.isFinite
      · have next := divided 308 (by omega)
        exact ih next (by omega) _ fun power small => next.div (Double.large_ofDecimal power) small

theorem within_ofInt (small : significand < 2 ^ 64) : Double.Within 65 (Double.ofInt significand) :=
  Double.within_ofRatio Nat.one_pos (by simpa using small.le) (by decide)

theorem isNormal_lowered (normal : value.IsNormal) (steps power : Nat) : (lowered value steps power).IsNormal := by
  induction steps generalizing value power with
  | zero => exact Double.isNormal_div _ _
  | succ steps ih =>
    unfold lowered
    split
    · exact Double.isNormal_div _ _
    · split
      · exact normal
      · exact ih (Double.isNormal_div _ _) _

theorem isNumeral_of_scaled? (small : significand < 2 ^ 64) (scaled : scaled? significand power = some value) :
    (real value).IsNumeral := by
  have start := within_ofInt small
  have normal : (Double.ofInt significand).IsNormal := Double.isNormal_ofRatio _ _ Nat.one_pos
  unfold scaled? at scaled
  dsimp only at scaled
  split at scaled
  · split at scaled
    · split at scaled
      · cases scaled
        exact ⟨start.isFinite, normal⟩
      · cases scaled
    · split at scaled
      next finite =>
        cases scaled
        exact ⟨finite, Double.isNormal_mul _ _⟩
      · cases scaled
  · cases scaled
    exact ⟨isFinite_lowered start (by decide) _, isNormal_lowered normal _ _⟩

/-- The digits that are kept make a real double in normal form. -/
theorem isNumeral_of_double? {negative : Bool} (small : kept.value < 2 ^ 64)
    (read : kept.double? negative power = some value) : (real value).IsNumeral := by
  obtain ⟨size, scaled, rfl⟩ := Option.map_eq_some_iff.mp read
  obtain ⟨finite, normal⟩ := isNumeral_of_scaled? small scaled
  split
  · exact ⟨by cases size <;> first | rfl | exact finite, Double.isNormal_neg normal⟩
  · exact ⟨finite, normal⟩

end Number

theorem isNumeral_of_plain {negative : Bool} {whole fraction behind rest : List Char} {kept : Significand} {value : Json}
    (small : kept.value < 2 ^ 64) (read : readNumber.plain negative whole fraction kept behind = some (value, rest)) :
    value.IsNumeral := by
  unfold readNumber.plain at read
  dsimp only at read
  generalize (if negative = true then -(decimalValue whole : Int) else decimalValue whole) = integer at read
  split at read
  next fits =>
    cases read
    simp only [Bool.and_eq_true, decide_eq_true_iff] at fits
    exact ⟨fits.1.1.2, fits.1.2⟩
  · obtain ⟨size, number, same⟩ := Option.bind_eq_some_iff.mp read
    cases same
    exact isNumeral_of_double? small number

theorem isNumeral_of_exponent {negative : Bool} {digits behind rest : List Char} {kept : Significand} {value : Json}
    (small : kept.value < 2 ^ 64) (read : ((Double.exponent? digits).bind fun power =>
      (kept.double? negative power).bind fun value => some (real value, behind)) = some (value, rest)) :
    value.IsNumeral := by
  obtain ⟨power, -, read⟩ := Option.bind_eq_some_iff.mp read
  obtain ⟨size, number, same⟩ := Option.bind_eq_some_iff.mp read
  cases same
  exact isNumeral_of_double? small number

/-- A number is read as an integer in range or as a real double in normal form. -/
theorem isNumeral_of_readNumber {text rest : List Char} {value : Json} (read : readNumber text = some (value, rest)) :
    value.IsNumeral := by
  unfold readNumber at read
  split at read
  next negative body parts =>
  simp only [Option.bind_eq_bind, Option.bind_none] at read
  split at read
  · cases read
  have start : ({} : Significand).value < 2 ^ 64 := by decide
  have front := Significand.value_foldl Significand.value_pushWhole start (body.takeWhile isDigit)
  generalize (body.takeWhile isDigit).foldl Significand.pushWhole {} = kept at read front
  split at read
  next more point =>
    split at read
    · cases read
    next filled =>
    have small : (⟨kept.value, kept.power, false⟩ : Significand).value < 2 ^ 64 := front
    have counted := Significand.value_foldl Significand.value_pushFraction small (more.takeWhile isDigit)
    simp only [filled, Option.bind_some] at read
    generalize (more.takeWhile isDigit).foldl Significand.pushFraction ⟨kept.value, kept.power, false⟩ = all
      at read counted
    split at read
    · split at read
      · exact isNumeral_of_exponent counted read
      · exact isNumeral_of_plain counted read
    · exact isNumeral_of_plain counted read
  · simp only [List.isEmpty_nil, if_true, Option.bind_some] at read
    split at read
    · split at read
      · exact isNumeral_of_exponent front read
      · exact isNumeral_of_plain front read
    · exact isNumeral_of_plain front read

theorem eq_of_readWord {word text rest : List Char} {value found : Json}
    (read : readWord word value text = some (found, rest)) : found = value := by
  obtain ⟨behind, -, same⟩ := Option.map_eq_some_iff.mp read
  cases same
  rfl

/-- Whatever is read with this fuel has numbers of documents and is no deeper than it may be. -/
structure ReadsNumerals (fuel : Nat) : Prop where
  value : ∀ {limit text value rest}, readValue fuel limit text = some (value, rest) →
    value.Every IsNumeral ∧ value.depth ≤ limit
  items : ∀ {limit text items rest}, readItems fuel limit text = some (items, rest) →
    EveryItem IsNumeral items ∧ depthItems items ≤ limit
  fields : ∀ {limit text fields rest}, readFields fuel limit text = some (fields, rest) →
    EveryField IsNumeral fields ∧ depthFields fields ≤ limit

namespace ReadsNumerals

variable {fuel limit : Nat} {text rest : List Char}

theorem value_succ (reads : ReadsNumerals fuel) {value : Json}
    (read : readValue (fuel + 1) limit text = some (value, rest)) : value.Every IsNumeral ∧ value.depth ≤ limit := by
  unfold readValue at read
  split at read
  · obtain ⟨string, -, same⟩ := Option.map_eq_some_iff.mp read
    cases same
    exact ⟨trivial, Nat.zero_le _⟩
  · split at read
    · cases read
    · cases read
      exact ⟨trivial, Nat.succ_le_succ (Nat.zero_le _)⟩
    · obtain ⟨⟨inner, after⟩, inside, same⟩ := Option.map_eq_some_iff.mp read
      cases same
      exact (reads.items inside).imp_right Nat.succ_le_succ
  · split at read
    · cases read
    · cases read
      exact ⟨trivial, Nat.succ_le_succ (Nat.zero_le _)⟩
    · obtain ⟨⟨inner, after⟩, inside, same⟩ := Option.map_eq_some_iff.mp read
      cases same
      exact (reads.fields inside).imp_right Nat.succ_le_succ
  · obtain rfl := eq_of_readWord read
    exact ⟨trivial, Nat.zero_le _⟩
  · obtain rfl := eq_of_readWord read
    exact ⟨trivial, Nat.zero_le _⟩
  · obtain rfl := eq_of_readWord read
    exact ⟨trivial, Nat.zero_le _⟩
  · obtain ⟨numerals, flat⟩ := (isNumeral_of_readNumber read).every
    exact ⟨numerals, flat.trans_le (Nat.zero_le _)⟩

theorem items_succ (reads : ReadsNumerals fuel) {items : List Json}
    (read : readItems (fuel + 1) limit text = some (items, rest)) :
    EveryItem IsNumeral items ∧ depthItems items ≤ limit := by
  unfold readItems at read
  obtain ⟨⟨item, behind⟩, first, read⟩ := Option.bind_eq_some_iff.mp read
  obtain ⟨own, deep⟩ := reads.value first
  dsimp only at read
  split at read
  · cases read
    exact ⟨⟨own, trivial⟩, Nat.max_le.mpr ⟨deep, Nat.zero_le _⟩⟩
  · obtain ⟨⟨more, after⟩, later, same⟩ := Option.bind_eq_some_iff.mp read
    cases same
    obtain ⟨others, deeper⟩ := reads.items later
    exact ⟨⟨own, others⟩, Nat.max_le.mpr ⟨deep, deeper⟩⟩
  · cases read

theorem fields_succ (reads : ReadsNumerals fuel) {fields : List (String × Json)}
    (read : readFields (fuel + 1) limit text = some (fields, rest)) :
    EveryField IsNumeral fields ∧ depthFields fields ≤ limit := by
  unfold readFields at read
  split at read
  · obtain ⟨⟨name, behind⟩, -, read⟩ := Option.bind_eq_some_iff.mp read
    dsimp only at read
    split at read
    · obtain ⟨⟨value, behind⟩, first, read⟩ := Option.bind_eq_some_iff.mp read
      obtain ⟨own, deep⟩ := reads.value first
      dsimp only at read
      split at read
      · cases read
        exact ⟨⟨own, trivial⟩, Nat.max_le.mpr ⟨deep, Nat.zero_le _⟩⟩
      · obtain ⟨⟨more, after⟩, later, same⟩ := Option.bind_eq_some_iff.mp read
        cases same
        obtain ⟨others, deeper⟩ := reads.fields later
        exact ⟨⟨own, others⟩, Nat.max_le.mpr ⟨deep, deeper⟩⟩
      · cases read
    · cases read
  · cases read

end ReadsNumerals

/-- Whatever is read at the front of a text has numbers of documents, by induction on the fuel. -/
theorem readsNumerals (fuel : Nat) : ReadsNumerals fuel := by
  induction fuel with
  | zero =>
    refine ⟨fun read => ?_, fun read => ?_, fun read => ?_⟩
    · simp [readValue] at read
    · simp [readItems] at read
    · simp [readFields] at read
  | succ fuel ih => exact ⟨ih.value_succ, ih.items_succ, ih.fields_succ⟩

mutual
/-- The canonical form of a value with numbers of documents is canonical. -/
theorem canonical_of_numerals : ∀ {value : Json}, value.Every IsNumeral → value.canonical.Canonical
  | .null, _ | .bool _, _ | .string _, _ => trivial
  | .int _, numeral | .real _, numeral => numeral
  | .array items, numerals => by
    rw [Json.canonical, canonicalItems_eq_map, Canonical, canonicalItems_iff, List.forall_mem_map]
    exact canonical_of_itemNumerals numerals
  | .object fields, numerals => by
    refine ⟨?_, canonicalFields_iff.mpr ?_⟩
    · have inOrder := Dict.sorted_ofPairs (fields.map fun field => (field.1, field.2.canonical))
      have same := Json.object.inj (canonical_object fields)
      rwa [← same] at inOrder
    · exact canonicalFields_induction Canonical (canonical_of_fieldNumerals numerals) (List.forall_mem_nil _)

theorem canonical_of_itemNumerals : ∀ {items : List Json}, EveryItem IsNumeral items →
    ∀ item ∈ items, item.canonical.Canonical
  | [], _ => List.forall_mem_nil _
  | _ :: _, numerals =>
    List.forall_mem_cons.mpr ⟨canonical_of_numerals numerals.1, canonical_of_itemNumerals numerals.2⟩

theorem canonical_of_fieldNumerals : ∀ {fields : List (String × Json)}, EveryField IsNumeral fields →
    ∀ field ∈ fields, field.2.canonical.Canonical
  | [], _ => List.forall_mem_nil _
  | _ :: _, numerals =>
    List.forall_mem_cons.mpr ⟨canonical_of_numerals numerals.1, canonical_of_fieldNumerals numerals.2⟩
end

/-- A document that is read is canonical, and no deeper than the reader goes. -/
theorem canonical_of_parse? {text : String} {value : Json} (parsed : parse? text = some value) :
    value.Canonical ∧ value.depth ≤ depthLimit := by
  obtain ⟨written, read, rfl⟩ := Option.map_eq_some_iff.mp parsed
  unfold read? at read
  split at read
  next value rest found =>
    split at read
    · cases read
      obtain ⟨numerals, deep⟩ := (readsNumerals _).value found
      exact ⟨canonical_of_numerals numerals, Nat.le_trans (depth_canonical _) deep⟩
    · cases read
  · cases read

mutual
/-- A canonical value is finite. -/
theorem Canonical.finite : ∀ {value : Json}, value.Canonical → value.Finite
  | .null, _ | .bool _, _ | .int _, _ | .string _, _ => trivial
  | .real _, canonical => canonical.1
  | .array _, canonical => CanonicalItems.finite canonical
  | .object _, canonical => CanonicalFields.finite canonical.2

theorem CanonicalItems.finite : ∀ {items : List Json}, CanonicalItems items → FiniteItems items
  | [], _ => trivial
  | _ :: _, canonical => ⟨canonical.1.finite, CanonicalItems.finite canonical.2⟩

theorem CanonicalFields.finite : ∀ {fields : List (String × Json)}, CanonicalFields fields → FiniteFields fields
  | [], _ => trivial
  | (_, _) :: _, canonical => ⟨canonical.1.finite, CanonicalFields.finite canonical.2⟩
end

/-- Every document that is read is finite. -/
theorem finite_of_parse? {text : String} {value : Json} (parsed : parse? text = some value) : value.Finite :=
  (canonical_of_parse? parsed).1.finite

theorem same_self_real {x : Double} (finite : x.isFinite = true) : x.same x = true := by
  cases x with
  | finite => exact beq_self_eq_true _
  | infinite | notANumber => cases finite

mutual
/-- A finite value is the same as itself. -/
theorem Finite.same_self : ∀ {value : Json}, value.Finite → value.same value = true
  | .null, _ => rfl
  | .bool _, _ | .int _, _ | .string _, _ => by simp [same]
  | .real _, finite => by
    rw [same]
    exact same_self_real finite
  | .array items, finite => by
    rw [same]
    exact FiniteItems.same_self finite
  | .object fields, finite => by
    rw [same]
    exact FiniteFields.same_self finite

theorem FiniteItems.same_self : ∀ {items : List Json}, FiniteItems items → sameItems items items = true
  | [], _ => rfl
  | _ :: _, finite => by
    rw [sameItems, finite.1.same_self, FiniteItems.same_self finite.2]
    rfl

theorem FiniteFields.same_self : ∀ {fields : List (String × Json)}, FiniteFields fields →
    sameFields fields fields = true
  | [], _ => rfl
  | (_, _) :: _, finite => by
    rw [sameFields, beq_self_eq_true, finite.1.same_self, FiniteFields.same_self finite.2]
    rfl
end

end Runbook.Json

import Runbook.Json.Basic
import Runbook.Proofs.Dict

/-!
The parts of a value: its numbers and its depth. What holds for every number of a value holds for the numbers of all its
parts, and a value is not deeper with the fields of its objects in order.
-/

namespace Runbook.Json

variable {holds : Json → Prop} {items : List Json} {fields : List (String × Json)} {bound : Nat}

mutual
/-- Every number in a value is one of a kind. -/
def Every (holds : Json → Prop) : Json → Prop
  | int n => holds (int n)
  | real x => holds (real x)
  | array items => EveryItem holds items
  | object fields => EveryField holds fields
  | _ => True

/-- Every number in the items of a list is one of a kind. -/
def EveryItem (holds : Json → Prop) : List Json → Prop
  | [] => True
  | item :: rest => Every holds item ∧ EveryItem holds rest

/-- Every number in the field values of a list is one of a kind. -/
def EveryField (holds : Json → Prop) : List (String × Json) → Prop
  | [] => True
  | (_, value) :: rest => Every holds value ∧ EveryField holds rest
end

mutual
/-- The number of arrays and objects inside each other. -/
def depth : Json → Nat
  | array items => depthItems items + 1
  | object fields => depthFields fields + 1
  | _ => 0

/-- The greatest depth of an item. -/
def depthItems : List Json → Nat
  | [] => 0
  | item :: rest => max (depth item) (depthItems rest)

/-- The greatest depth of a field value. -/
def depthFields : List (String × Json) → Nat
  | [] => 0
  | (_, value) :: rest => max (depth value) (depthFields rest)
end

theorem everyItem_iff : EveryItem holds items ↔ ∀ item ∈ items, item.Every holds := by
  induction items with
  | nil => simp [EveryItem]
  | cons item rest ih => simp [EveryItem, ih]

theorem everyField_iff : EveryField holds fields ↔ ∀ field ∈ fields, field.2.Every holds := by
  induction fields with
  | nil => simp [EveryField]
  | cons field rest ih => simp [EveryField, ih]

theorem depthItems_le_iff : depthItems items ≤ bound ↔ ∀ item ∈ items, item.depth ≤ bound := by
  induction items with
  | nil => simp [depthItems]
  | cons item rest ih => rw [depthItems, Nat.max_le, ih, List.forall_mem_cons]

theorem depthFields_le_iff : depthFields fields ≤ bound ↔ ∀ field ∈ fields, field.2.depth ≤ bound := by
  induction fields with
  | nil => simp [depthFields]
  | cons field rest ih => rw [depthFields, Nat.max_le, ih, List.forall_mem_cons]

/-- A property that a value has only if all its parts have it. -/
structure Hereditary (holds : Json → Prop) : Prop where
  items : ∀ {items}, holds (array items) → ∀ item ∈ items, holds item
  fields : ∀ {fields : List (String × Json)}, holds (object fields) → ∀ field ∈ fields, holds field.2

theorem hereditary_depth : Hereditary (depth · ≤ bound) where
  items deep := depthItems_le_iff.mp (Nat.le_of_succ_le deep)
  fields deep := depthFields_le_iff.mp (Nat.le_of_succ_le deep)

/-- What the canonical forms of all field values have, the fields in order have. -/
theorem canonicalFields_induction (kept : Json → Prop) {written : Dict Json}
    (each : ∀ field ∈ fields, kept field.2.canonical) (before : ∀ field ∈ written, kept field.2) :
    ∀ field ∈ canonicalFields fields written, kept field.2 := by
  induction fields generalizing written with
  | nil => exact before
  | cons field rest ih =>
    obtain ⟨first, later⟩ := List.forall_mem_cons.mp each
    refine ih later fun other member => ?_
    rcases Dict.mem_of_mem_insert member with rfl | earlier
    · exact first
    · exact before other earlier

theorem canonicalItems_eq_map (items : List Json) : canonicalItems items = items.map canonical := by
  induction items with
  | nil => rfl
  | cons item rest ih => rw [canonicalItems, ih, List.map_cons]

mutual
/-- The canonical form of a value is not deeper. -/
theorem depth_canonical : ∀ value : Json, value.canonical.depth ≤ value.depth
  | .null | .bool _ | .string _ | .int _ | .real _ => Nat.le_refl _
  | .array items => by
    rw [canonical, depth, depth, canonicalItems_eq_map]
    refine Nat.succ_le_succ (depthItems_le_iff.mpr ?_)
    rw [List.forall_mem_map]
    exact depthItems_canonical items
  | .object fields => by
    rw [canonical, depth, depth]
    have kept := canonicalFields_induction (·.depth ≤ depthFields fields) (depthFields_canonical fields)
      (List.forall_mem_nil _)
    exact Nat.succ_le_succ (depthFields_le_iff.mpr kept)

theorem depthItems_canonical : ∀ items : List Json, ∀ item ∈ items, item.canonical.depth ≤ depthItems items
  | [] => List.forall_mem_nil _
  | item :: rest => List.forall_mem_cons.mpr ⟨Nat.le_trans (depth_canonical item) (Nat.le_max_left _ _),
      fun other member => Nat.le_trans (depthItems_canonical rest other member) (Nat.le_max_right _ _)⟩

theorem depthFields_canonical : ∀ fields : List (String × Json),
    ∀ field ∈ fields, field.2.canonical.depth ≤ depthFields fields
  | [] => List.forall_mem_nil _
  | (_, value) :: rest => List.forall_mem_cons.mpr ⟨Nat.le_trans (depth_canonical value) (Nat.le_max_left _ _),
      fun other member => Nat.le_trans (depthFields_canonical rest other member) (Nat.le_max_right _ _)⟩
end

end Runbook.Json

/-!
The order of the fields in a document. A canonical value has its fields in order already, and putting the fields of a
document in order keeps every field.
-/

namespace Runbook.Json

/-- The canonical form of an object is the dictionary of the canonical forms of its fields. -/
theorem canonical_object (fields : List (String × Json)) :
    canonical (.object fields) = .object (Dict.ofPairs (fields.map fun field => (field.1, field.2.canonical))) := by
  have put (written : Dict Json) : canonicalFields fields written =
      (fields.map fun field => (field.1, field.2.canonical)).foldl (fun dict pair => dict.insert pair.1 pair.2)
        written := by
    induction fields generalizing written with
    | nil => rfl
    | cons field rest ih => rw [canonicalFields, ih, List.map_cons, List.foldl_cons]
  rw [canonical, put, Dict.ofPairs]

mutual
/-- A canonical value is its own canonical form. -/
theorem Canonical.canonical_eq : ∀ {value : Json}, value.Canonical → value.canonical = value
  | .null, _ | .bool _, _ | .int _, _ | .real _, _ | .string _, _ => rfl
  | .array items, canonical => by rw [Json.canonical, CanonicalItems.canonical_eq canonical]
  | .object fields, ⟨sorted, canonical⟩ => by
    rw [canonical_object, CanonicalFields.canonical_eq canonical, Dict.ofPairs_eq_self sorted]

theorem CanonicalItems.canonical_eq : ∀ {items : List Json}, CanonicalItems items → canonicalItems items = items
  | [], _ => rfl
  | _ :: _, ⟨first, rest⟩ => by rw [canonicalItems, first.canonical_eq, CanonicalItems.canonical_eq rest]

theorem CanonicalFields.canonical_eq : ∀ {fields : List (String × Json)}, CanonicalFields fields →
    (fields.map fun field => (field.1, field.2.canonical)) = fields
  | [], _ => rfl
  | _ :: _, ⟨first, rest⟩ => by rw [List.map_cons, first.canonical_eq, CanonicalFields.canonical_eq rest]
end

/-- A way to put the fields of every object of a document in some order; nothing else changes. -/
structure Arranges (arrange : Json → Json) : Prop where
  null : arrange .null = .null
  bool : ∀ value, arrange (.bool value) = .bool value
  int : ∀ value, arrange (.int value) = .int value
  real : ∀ value, arrange (.real value) = .real value
  string : ∀ text, arrange (.string text) = .string text
  array : ∀ items, arrange (.array items) = .array (items.map arrange)
  object : ∀ fields : List (String × Json), (fields.map Prod.fst).Nodup → ∃ arranged,
    arrange (.object fields) = .object arranged ∧ arranged.Perm (fields.map fun field => (field.1, arrange field.2))
  /-- The order of fields does not matter to the canonical form of a value. -/
  canonical : ∀ value : Json, value.Canonical → (arrange value).canonical = value

/-- The fields may stay as they are written. -/
theorem arranges_id : Arranges id where
  null := rfl
  bool _ := rfl
  int _ := rfl
  real _ := rfl
  string _ := rfl
  array items := by rw [List.map_id]; rfl
  object fields _ := ⟨fields, rfl, by simp⟩
  canonical _ canonical := canonical.canonical_eq

/-- The fields may be sorted by name. -/
theorem arranges_canonical : Arranges canonical where
  null := rfl
  bool _ := rfl
  int _ := rfl
  real _ := rfl
  string _ := rfl
  array items := by rw [canonical, canonicalItems_eq_map]
  object fields distinct := by
    refine ⟨_, canonical_object fields, Dict.ofPairs_perm ?_⟩
    rwa [List.map_map]
  canonical _ canonical := by rw [canonical.canonical_eq, canonical.canonical_eq]

end Runbook.Json

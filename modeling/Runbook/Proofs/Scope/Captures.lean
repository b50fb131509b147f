import Mathlib.Data.List.Induction
import Runbook.Scope

/-!
Values captured one after another. Under each name the last of them counts, in a dictionary as in a scope; a scope has
its earlier value for a name that none of them has.
-/

namespace Runbook

namespace Dict

variable {α : Type}

/-- The value that comes last under a name. -/
def last? (name : String) (pairs : List (String × α)) : Option α := pairs.reverse.lookup name

/-- Of two lists one after the other, the second counts where it has the name. -/
theorem last?_append (name : String) (first second : List (String × α)) :
    last? name (first ++ second) = (last? name second).or (last? name first) := by
  rw [last?, List.reverse_append, List.lookup_append, last?, last?]

theorem last?_concat (name : String) (pairs : List (String × α)) (pair : String × α) :
    last? name (pairs ++ [pair]) = if name = pair.1 then some pair.2 else last? name pairs := by
  obtain ⟨key, value⟩ := pair
  rw [last?_append]
  by_cases same : name = key
  · simp [last?, same]
  · have apart : (name == key) = false := by simpa using same
    simp [last?, List.lookup_cons, apart, same]

theorem last?_cons (name : String) (pair : String × α) (pairs : List (String × α)) :
    last? name (pair :: pairs) = (last? name pairs).or (if name = pair.1 then some pair.2 else none) := by
  rw [← List.singleton_append, last?_append, ← List.nil_append [pair], last?_concat]
  rfl

theorem last?_eq_none_iff {name : String} {pairs : List (String × α)} :
    last? name pairs = none ↔ name ∉ pairs.map Prod.fst := by
  rw [last?, List.lookup_eq_none_iff]
  simp only [List.mem_reverse, bne_iff_ne, ne_eq, List.mem_map, not_exists, not_and]
  exact forall₂_congr fun pair _ => ⟨fun apart same => apart same.symm, fun apart same => apart same.symm⟩

/-- In a dictionary made of pairs a name has the value that comes last under it. -/
theorem find?_ofPairs (name : String) (pairs : List (String × α)) : (ofPairs pairs).find? name = last? name pairs := by
  induction pairs using List.reverseRecOn with
  | nil => rfl
  | append_singleton pairs pair ih =>
    have grown : ofPairs (pairs ++ [pair]) = (ofPairs pairs).insert pair.1 pair.2 := by simp [ofPairs]
    rw [grown, last?_concat]
    split
    · next same => rw [same, find?_insert_self]
    · next different => rw [find?_insert_ne different, ih]

end Dict

namespace Scope

/-- The scope after some values are captured, one after another. -/
def captureAll (scope : Scope) (pairs : List (String × Json)) : Scope :=
  pairs.foldl (fun scope pair => scope.capture pair.1 pair.2) scope

@[simp] theorem captureAll_nil (scope : Scope) : scope.captureAll [] = scope := rfl

theorem captureAll_append (scope : Scope) (first second : List (String × Json)) :
    scope.captureAll (first ++ second) = (scope.captureAll first).captureAll second := List.foldl_append

theorem captureAll_flatMap {α : Type} (scope : Scope) (pairs : α → List (String × Json)) (elements : List α) :
    scope.captureAll (elements.flatMap pairs) =
      elements.foldl (fun scope element => scope.captureAll (pairs element)) scope :=
  List.foldl_flatMap

/-- A name has the value captured last under it, and otherwise the value that it had before. -/
theorem find?_captureAll (scope : Scope) (pairs : List (String × Json)) (name : String) :
    (scope.captureAll pairs).find? name =
      ((Dict.last? name pairs).map fun value => (value, Origin.captured)).or (scope.find? name) := by
  induction pairs using List.reverseRecOn with
  | nil => rfl
  | append_singleton pairs pair ih =>
    have grown : scope.captureAll (pairs ++ [pair]) = (scope.captureAll pairs).capture pair.1 pair.2 := by
      rw [captureAll_append]
      rfl
    rw [grown, Dict.last?_concat]
    split
    · next same => simp [same]
    · next different => rw [find?_capture_ne _ different, ih]

end Scope
end Runbook

/-!
Dictionaries with text keys: lists of pairs in increasing order of their keys.
-/

namespace Runbook

/-- A dictionary from texts, as a list of pairs. The operations keep the keys in increasing order. -/
abbrev Dict (α : Type) := List (String × α)

namespace Dict

variable {α β : Type}

/-- The keys stand in strictly increasing order. -/
def Sorted (dict : Dict α) : Prop := dict.Pairwise fun first second => first.1 < second.1

/-- The value of a key. -/
def find? (key : String) (dict : Dict α) : Option α := dict.lookup key

/-- The dictionary with a value put at a key; a value already there is replaced. -/
def insert (key : String) (value : α) : Dict α → Dict α
  | [] => [(key, value)]
  | (other, held) :: rest =>
    if key < other then (key, value) :: (other, held) :: rest
    else if key = other then (key, value) :: rest
    else (other, held) :: insert key value rest

/-- The dictionary of a list of pairs; of several pairs with one key the last counts. -/
def ofPairs (pairs : List (String × α)) : Dict α :=
  pairs.foldl (fun dict pair => dict.insert pair.1 pair.2) []

/-- The keys in increasing order. -/
def keys (dict : Dict α) : List String := dict.map Prod.fst

/-- The dictionary with a function applied to every value. -/
def mapValues (f : α → β) (dict : Dict α) : Dict β := dict.map fun pair => (pair.1, f pair.2)

@[simp] theorem find?_nil (key : String) : find? key ([] : Dict α) = none := rfl

/-- A key just written holds the value written. -/
@[simp] theorem find?_insert_self (key : String) (value : α) (dict : Dict α) :
    (dict.insert key value).find? key = some value := by
  induction dict with
  | nil => simp [insert, find?]
  | cons pair rest ih =>
    obtain ⟨other, held⟩ := pair
    unfold insert
    split
    · simp [find?]
    · split
      · simp [find?]
      · next different =>
        have unequal : (key == other) = false := by simpa using different
        simpa [find?, List.lookup_cons, unequal] using ih

/-- Every other key keeps its value. -/
theorem find?_insert_ne {key name : String} (different : name ≠ key) (value : α) (dict : Dict α) :
    (dict.insert key value).find? name = dict.find? name := by
  have apart : (name == key) = false := by simpa using different
  induction dict with
  | nil => simp [insert, find?, List.lookup_cons, apart]
  | cons pair rest ih =>
    obtain ⟨other, held⟩ := pair
    unfold insert
    split
    · simp [find?, List.lookup_cons, apart]
    · split
      · next same =>
        subst same
        simp [find?, List.lookup_cons, apart]
      · simp only [find?, List.lookup_cons] at ih ⊢
        split <;> simp_all

end Dict
end Runbook

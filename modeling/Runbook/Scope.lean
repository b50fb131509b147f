import Runbook.Json.Basic

/-!
The variables that a run can name: those of its environment, and the values captured so far, which shadow them.
-/

namespace Runbook

/-- Where the value of a name comes from. -/
inductive Origin where
  | environment
  | captured
  | builtin
deriving DecidableEq, Repr

/-- The variables of a run. -/
structure Scope where
  captured : Dict Json := []
  environment : Dict String := []
deriving Inhabited

namespace Scope

/-- The scope of a run before its first capture. -/
def ofBindings (bindings : Dict String) : Scope := { environment := bindings }

/-- The scope after a value is captured under a name; an earlier value of that name is replaced. -/
def capture (scope : Scope) (name : String) (value : Json) : Scope :=
  { scope with captured := scope.captured.insert name value }

/-- The value of a name and where it comes from. -/
def find? (scope : Scope) (name : String) : Option (Json × Origin) :=
  match scope.captured.find? name with
  | some value => some (value, .captured)
  | none => (scope.environment.find? name).map fun text => (.string text, .environment)

/-- A name just captured has the value captured. -/
@[simp] theorem find?_capture_self (scope : Scope) (name : String) (value : Json) :
    (scope.capture name value).find? name = some (value, .captured) := by
  simp [find?, capture]

/-- A capture leaves every other name as it was. -/
theorem find?_capture_ne (scope : Scope) {name other : String} (different : other ≠ name) (value : Json) :
    (scope.capture name value).find? other = scope.find? other := by
  simp [find?, capture, Dict.find?_insert_ne different]

end Scope
end Runbook

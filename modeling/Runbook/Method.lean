import Runbook.Text.Ascii

/-!
The methods of HTTP requests.
-/

namespace Runbook

/-- A request method. -/
inductive Method where
  | get
  | post
  | put
  | delete
  | patch
  | head
  | options
deriving DecidableEq, Repr, Inhabited

namespace Method

/-- Every method. -/
def all : List Method := [get, post, put, delete, patch, head, options]

/-- The name of a method on the wire. -/
def name : Method → String
  | get => "GET"
  | post => "POST"
  | put => "PUT"
  | delete => "DELETE"
  | patch => "PATCH"
  | head => "HEAD"
  | options => "OPTIONS"

/-- The method of a name exactly as on the wire. -/
def ofName? (name : String) : Option Method := all.find? (·.name == name)

/-- The method of a name in any case of ASCII letters. -/
def read? (text : String) : Option Method := ofName? (Text.upper text)

/-- A method is found under its own name. -/
theorem ofName?_name (method : Method) : ofName? method.name = some method := by
  cases method <;> decide

/-- A name finds a method only if it is the name of that method. -/
theorem name_of_ofName? {text : String} {method : Method} (found : ofName? text = some method) :
    method.name = text := by
  simpa using List.find?_some found

theorem read?_eq_some_iff {text : String} {method : Method} : read? text = some method ↔ method.name = Text.upper text := by
  constructor
  · exact name_of_ofName?
  · intro named
    rw [read?, ← named, ofName?_name]

end Method
end Runbook

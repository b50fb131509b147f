import Runbook.Json.Basic

/-!
Assertions about a response: what they look at, how they compare, and what with.
-/

namespace Runbook

/-- The fact of a response that an assertion looks at. -/
inductive Subject where
  | status
  | duration
  /-- The value at a path of the JSON body; the empty path means the whole body. -/
  | body (path : String)
  | header (name : String)
deriving DecidableEq, Repr

/-- How an assertion judges its subject. -/
inductive Operator where
  | equal
  | notEqual
  | less
  | atMost
  | greater
  | atLeast
  | present
  | absent
deriving DecidableEq, Repr

namespace Operator

/-- The written form of an operator. -/
def text : Operator → String
  | equal => "=="
  | notEqual => "!="
  | less => "<"
  | atMost => "<="
  | greater => ">"
  | atLeast => ">="
  | present => "exists"
  | absent => "not-exists"

/-- The operators in the order in which their written forms are tried: a form stands before its own beginning. -/
def all : List Operator := [equal, notEqual, atMost, atLeast, less, greater, absent, present]

/-- An operator that only asks whether its subject is there. -/
def isPresence (operator : Operator) : Bool := operator == present || operator == absent

/-- An operator that compares numbers by size. -/
def isOrdering (operator : Operator) : Bool := [less, atMost, greater, atLeast].contains operator

end Operator

/-- The right-hand side of an assertion. -/
inductive Literal where
  | number (value : Double)
  | string (text : String)
  | bool (value : Bool)
  | null
  /-- A JSON array or object. -/
  | json (value : Json)
  /-- A text with placeholders, filled right before the comparison. -/
  | template (text : String)
deriving Repr

/-- An assertion, with the line it was read from. -/
structure Assertion where
  subject : Subject
  operator : Operator
  expected : Option Literal
  source : String
deriving Repr

end Runbook

import Runbook.Assertion.Basic
import Runbook.Dict
import Runbook.Method

/-!
Scenarios: the requests of a test, with what they capture and assert, in the order of a script or along the edges of a
graph.
-/

namespace Runbook

/-- A value to take out of a response and the variable to keep it in. -/
structure Capture where
  name : String
  path : String
deriving DecidableEq, Repr

/-- How a step is carried out. -/
structure StepOptions where
  /-- The timeout in milliseconds, where it is not that of the run. -/
  timeout : Option Nat := none
  /-- The number of further attempts after a network error. -/
  retry : Nat := 0
  /-- The wait in milliseconds before the first further attempt. -/
  retryWait : Nat := 0
deriving DecidableEq, Repr

/-- A place on a drawing; it does not matter for a run. -/
structure Position where
  x : Double
  y : Double
deriving DecidableEq, Repr

/-- A request of a scenario. Its texts are templates. -/
structure Step where
  id : String
  name : String
  method : Method
  url : String
  headers : Dict String := []
  body : Option String := none
  captures : List Capture := []
  asserts : List Assertion := []
  sortOrder : Nat := 0
  position : Option Position := none
  options : StepOptions := {}
deriving Repr

/-- A dependency between steps. The mapping gives captured values of the source new names for the target. -/
structure Edge where
  source : String
  target : String
  mapping : Dict String := []
deriving DecidableEq, Repr

/-- The shape of a scenario. -/
inductive Flow where
  /-- Each step depends on the one before it in sort order. -/
  | script (steps : List Step)
  | graph (steps : List Step) (edges : List Edge)
deriving Repr

/-- The steps of a flow in declaration order. -/
def Flow.steps : Flow → List Step
  | .script steps => steps
  | .graph steps _ => steps

/-- A named test. -/
structure Scenario where
  id : String
  name : String
  source : Option String := none
  flow : Flow
deriving Repr

/-- The steps of a scenario in declaration order. -/
def Scenario.steps (scenario : Scenario) : List Step := scenario.flow.steps

/-- A target of runs: where relative URLs lead, the variables of last resort and the headers of every request. -/
structure Environment where
  name : String
  baseUrl : Option String := none
  bindings : Dict String := []
  headers : Dict String := []
  isActive : Bool := false
deriving DecidableEq, Repr, Inhabited

end Runbook

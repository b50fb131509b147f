import Runbook.Exchange
import Runbook.Scenario.Basic
import Runbook.Time.Instant

/-!
Runs: the record of one execution of a scenario, with a result for each of its steps.
-/

namespace Runbook

/-- The state of a step in a run. -/
inductive StepStatus where
  | pending
  | running
  | passed
  | failed
  | skipped
deriving DecidableEq, Repr

namespace StepStatus

/-- Every status of a step. -/
def all : List StepStatus := [pending, running, passed, failed, skipped]

/-- The name of a status. -/
def name : StepStatus → String
  | pending => "pending"
  | running => "running"
  | passed => "passed"
  | failed => "failed"
  | skipped => "skipped"

/-- The status of a name. -/
def ofName? (name : String) : Option StepStatus := all.find? (·.name == name)

/-- A status that a step keeps. -/
def isTerminal (status : StepStatus) : Bool := status == passed || status == failed || status == skipped

end StepStatus

/-- The state of a run. -/
inductive RunStatus where
  | pending
  | running
  | passed
  | failed
deriving DecidableEq, Repr

namespace RunStatus

/-- Every status of a run. -/
def all : List RunStatus := [pending, running, passed, failed]

/-- The name of a status. -/
def name : RunStatus → String
  | pending => "pending"
  | running => "running"
  | passed => "passed"
  | failed => "failed"

/-- The status of a name. -/
def ofName? (name : String) : Option RunStatus := all.find? (·.name == name)

end RunStatus

/-- The request of a step as it was sent. -/
structure RequestSnapshot where
  method : String
  url : String
  headers : Dict String
  body : Option String
deriving DecidableEq, Repr

/-- The response to a step as it came. -/
structure ResponseSnapshot where
  status : Nat
  headers : Dict String
  body : String
deriving DecidableEq, Repr

/-- What is kept of a request. -/
def Request.snapshot (request : Request) : RequestSnapshot :=
  ⟨request.method.name, request.url, request.headers, request.body⟩

/-- What is kept of a response. -/
def Reply.snapshot (reply : Reply) : ResponseSnapshot := ⟨reply.status, reply.headers, reply.body⟩

/-- The result of a step in a run. -/
structure StepResult where
  stepId : String
  name : String
  status : StepStatus := .pending
  request : Option RequestSnapshot := none
  response : Option ResponseSnapshot := none
  millis : Nat := 0
  /-- The details of the assertions that do not hold. -/
  failures : List String := []
  /-- Why the step failed or was skipped, other than by an assertion. -/
  error : Option String := none
  /-- The values that the step captured. -/
  captured : Dict Json := []
deriving Repr

/-- The result of a step that has not run. -/
def StepResult.ofStep (step : Step) : StepResult := { stepId := step.id, name := step.name }

/-- The record of an execution of a scenario. -/
structure Run where
  id : String
  scenarioId : String
  scenarioName : String
  environment : String
  status : RunStatus := .pending
  startedAt : Option Time.Instant := none
  finishedAt : Option Time.Instant := none
  results : List StepResult := []
  canceled : Bool := false
deriving Repr

namespace Run

/-- The record of a run that has not started. -/
def ofScenario (id : String) (scenario : Scenario) (environment : String) : Run where
  id := id
  scenarioId := scenario.id
  scenarioName := scenario.name
  environment := environment
  results := scenario.steps.map StepResult.ofStep

/-- A run passed when its status says so. -/
def passed (run : Run) : Bool := run.status == .passed

/-- The number of steps with a status. -/
def count (run : Run) (status : StepStatus) : Nat := run.results.countP (·.status == status)

/-- The milliseconds from start to finish; zero when one of them is not known. -/
def millis (run : Run) : Nat :=
  match run.startedAt, run.finishedAt with
  | some start, some finish => start.millisUntil finish
  | _, _ => 0

end Run
end Runbook

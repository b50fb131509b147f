import Runbook.Run.Basic

/-!
Progress events: each change of the status of a step, and the end of each run.
-/

namespace Runbook

/-- A change of the status of a step. -/
structure StepEvent where
  runId : String
  scenario : String
  stepId : String
  name : String
  status : StepStatus
  /-- The duration, known once the status is terminal. -/
  millis : Option Nat
  details : List String := []
deriving DecidableEq, Repr

/-- The event that tells the result of a step: its error first, then its failed assertions. -/
def StepEvent.ofResult (run : Run) (result : StepResult) : StepEvent where
  runId := run.id
  scenario := run.scenarioName
  stepId := result.stepId
  name := result.name
  status := result.status
  millis := if result.status.isTerminal then some result.millis else none
  details := result.error.toList ++ result.failures

/-- Something that happened in a run. -/
inductive ProgressEvent where
  | step (event : StepEvent)
  /-- The end of a run; no event of the run follows. -/
  | done (runId scenario : String) (status : RunStatus) (canceled : Bool)
deriving DecidableEq, Repr

namespace ProgressEvent

/-- The event that ends a run. -/
def ofRun (run : Run) : ProgressEvent := done run.id run.scenarioName run.status run.canceled

/-- The run that an event belongs to. -/
def runId : ProgressEvent → String
  | step event => event.runId
  | done runId .. => runId

end ProgressEvent
end Runbook

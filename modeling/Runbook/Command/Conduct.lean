import Runbook.Command.Invocation
import Runbook.Command.Workspace
import Runbook.Delivery.Basic
import Runbook.Progress.Stream
import Runbook.Report.Console
import Runbook.Run.Batch

/-!
Carrying out scenarios for a command: progress is shown, every exchange is recorded, and the runs are shown, saved and
delivered. Only the runs decide whether the command succeeds.
-/

namespace Runbook.Command

open Runbook.Report

/-- What follows the notes of runs: what is shown of their progress, and the history. -/
structure Watch where
  output : Output
  color : Bool
  recorder : Option History.Recorder
  project : Option String

/-- What is shown of an event. -/
def Watch.progressText (watch : Watch) (event : ProgressEvent) : String :=
  match watch.output with
  | .text => ((stepLine? watch.color event).map (· ++ "\n")).getD ""
  | .stream => Stream.frame event
  | .json => ""

/-- A note is shown or recorded. -/
def Watch.observe {m : Type → Type} [Monad m] [Host m] (watch : Watch) : Note → m Unit
  | .progress event => Host.print (watch.progressText event)
  | .exchange request outcome elapsed => do
    match watch.recorder with
    | some recorder => discard (recorder.record (.ofAttempt (← Host.now) watch.project request outcome elapsed))
    | none => return
  | .retry .. => return

/-- The runs among the results. -/
def completed (results : List (Except RunError Run)) : List Run := results.filterMap Except.toOption

/-- The first error among the results. -/
def firstError? (results : List (Except RunError Run)) : Option RunError :=
  results.findSome? fun
    | .ok _ => none
    | .error error => some error

/-- Every scenario was run and its run passed. -/
def allPassed (results : List (Except RunError Run)) : Bool :=
  results.all fun
    | .ok run => run.passed
    | .error _ => false

/-- The results of so many scenarios, out of those that ended, each with the place of its scenario. A scenario without a
result was not completed. -/
def placed (count : Nat) (ended : List (Nat × Except RunError Run)) : List (Except RunError Run) :=
  (List.range count).map fun place => (ended.reverse.lookup place).getD (.error .incomplete)

/-- What is shown of the runs when all are done; the given milliseconds are those of the whole. -/
def closingText (output : Output) (color : Bool) (runs : List Run) (millis : Nat) : String :=
  match output with
  | .text => "\n" ++ summary color runs millis ++ "\n"
  | .json => (Json.array (runs.map Run.toJson)).pretty ++ "\n"
  | .stream => ""

section

variable {m : Type → Type} [Monad m] [Host m]

/-- A scenario is run in an environment, with an observer of its notes. -/
def runScenario (observe : Note → m Unit) (options : RunOptions) (environment : Environment) (scenario : Scenario) :
    m (Except RunError Run) := do
  let runId := Template.uuid (← Host.draws)
  let draws ← Host.draws
  let canceled ← Host.pause 0
  let start := { Engine.Start.ofEnvironment environment runId draws with canceled }
  Interaction.perform observe (Engine.run options scenario start)

/-- The results of scenarios that are run side by side, in the order of the scenarios. -/
def runScenarios [Crew m] (observe : Note → m Unit) (options : RunOptions) (environment : Environment)
    (workers : Nat) (scenarios : List Scenario) : m (List (Except RunError Run)) := do
  let ended ← Crew.together (Batch.workerCount workers) (scenarios.zipIdx.map fun (scenario, place) => do
    return (place, ← runScenario observe options environment scenario))
  return placed scenarios.length ended

/-- The runs are saved where a directory for reports is given. -/
def saveReports (execution : Execution) (runs : List Run) : m Unit :=
  execution.reportDirectory.forM fun directory =>
    runs.forM fun run => discard (Report.save run directory execution.reportFormat : m (Except Failure String))

/-- The runs are delivered where a console is given. -/
def deliver (workspace : Workspace) (execution : Execution) (runs : List Run) : m Unit :=
  (execution.consoleUrl.or workspace.config.console.url).forM fun url =>
    let console : Delivery.Console := { url, token := workspace.config.console.token }
    discard (Interaction.perform (fun _ => pure ()) (Delivery.submitAll console runs))

/-- The first error among the results is told. -/
def tellError (results : List (Except RunError Run)) : m Unit :=
  (firstError? results).forM fun error => Host.complain (Ink.red.apply ("Error: " ++ error.message) ++ "\n")

/-- Whoever follows the runs that are asked for. The history is opened for them. -/
def watchOf (workspace : Workspace) (execution : Execution) : m Watch := do
  let color ← Host.isTerminal
  let recorder ← workspace.recorder?
  return { output := execution.output, color, recorder, project := workspace.project }

/-- The options of the runs that are asked for. -/
def optionsOf (workspace : Workspace) (execution : Execution) (failFast : Bool) : RunOptions where
  defaultTimeout := execution.timeout.getD workspace.config.defaults.timeout
  abortOnFailure := failFast

/-- The scenarios are carried out in an environment. The result tells whether all of them passed. -/
def conductIn [Crew m] (workspace : Workspace) (execution : Execution) (workers : Nat) (failFast : Bool)
    (scenarios : List Scenario) (environment : Environment) : m Bool := do
  let watch ← watchOf workspace execution
  let start ← Host.now
  let results ← runScenarios watch.observe (optionsOf workspace execution failFast) environment workers scenarios
  let millis := start.millisUntil (← Host.now)
  let runs := completed results
  Host.print (closingText execution.output watch.color runs millis)
  saveReports execution runs
  deliver workspace execution runs
  tellError results
  return allPassed results

/-- The scenarios are carried out in the environment that is asked for. -/
def conduct [Crew m] (workspace : Workspace) (execution : Execution) (workers : Nat) (failFast : Bool)
    (scenarios : List Scenario) : m (Except Failure Bool) := do
  match workspace.environment execution.environment with
  | .error error => return .error { message := error.message }
  | .ok environment => return .ok (← conductIn workspace execution workers failFast scenarios environment)

end

end Runbook.Command

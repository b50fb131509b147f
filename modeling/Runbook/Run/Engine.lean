import Runbook.Environment
import Runbook.Plan
import Runbook.Run.Interaction

/-!
Carrying out a scenario: its steps in the order of its plan, each with its own request, retries, captures and
assertions. A step whose dependencies did not pass is skipped.
-/

namespace Runbook

/-- What applies to every step of a run. -/
structure RunOptions where
  /-- The timeout in milliseconds of steps that set none. -/
  defaultTimeout : Nat := 30000
  /-- After the first failure every remaining step is skipped. -/
  abortOnFailure : Bool := false
deriving DecidableEq, Repr

/-- Why a scenario could not be run. -/
inductive RunError where
  | scenario (error : ScenarioError)
  | environment (error : EnvironmentError)
  /-- The run broke down. -/
  | incomplete

/-- The wording of a run error. -/
def RunError.message : RunError → String
  | scenario error => error.message
  | environment error => error.message
  | incomplete => "run task failed: run did not complete"

namespace Engine

/-- Why a request could not be made. -/
inductive RequestError where
  | unresolved (error : Unresolved)
  | network (error : NetworkError)

/-- The wording of a request error. -/
def RequestError.message : RequestError → String
  | unresolved error => error.message
  | network error => error.message

/-- The headers of a step with their placeholders filled, in the order of their names. -/
def fillHeaders (draws : Template.Draws) (scope : Scope) : Dict String → Except Unresolved (Dict String)
  | [] => .ok []
  | (name, value) :: rest => do
    let text ← Template.resolve (draws.part (rest.length + 2)) scope value
    let more ← fillHeaders draws scope rest
    return (name, text) :: more

/-- The request of a step. -/
def request (options : RunOptions) (environment : Environment) (draws : Template.Draws) (scope : Scope) (step : Step) :
    Except RequestError Request := do
  let template ← (Template.resolve (draws.part 0) scope step.url).mapError .unresolved
  let url ← (Request.resolveUrl environment.baseUrl template).mapError .network
  let headers ← (fillHeaders draws scope step.headers).mapError .unresolved
  let body ← match step.body with
    | some text => ((Template.resolve (draws.part 1) scope text).map some).mapError RequestError.unresolved
    | none => pure none
  return {
    method := step.method
    url, body
    headers := Request.mergeHeaders environment.headers headers body.isSome
    timeout := step.options.timeout.getD options.defaultTimeout }

/-- The longest wait between two attempts in milliseconds. -/
def longestWait : Nat := 30000

/-- The greatest number of a 64-bit word. -/
def wordLimit : Nat := Nat.pow 2 64 - 1

/-- The wait after an attempt, counted from zero: the base doubled with each attempt, up to the longest wait. Both the
power and the product are held within a 64-bit word. -/
def retryWait (base attempt : Nat) : Nat :=
  let factor := if attempt < 64 then 1 <<< attempt else wordLimit
  min (min (base * factor) wordLimit) longestWait

/-- What came back in the end, the milliseconds that passed, and whether the run has been canceled. -/
structure Sent where
  outcome : Outcome
  elapsed : Nat
  canceled : Bool

/-- A request is sent, and after a network error sent again as long as attempts are left and the run is not canceled.
Every attempt is noted. -/
def send (options : StepOptions) (request : Request) (attempt elapsed : Nat) : Nat → Interaction Sent
  | 0 => .call request fun answer =>
    .note (.exchange request answer.outcome answer.elapsed)
      (.done ⟨answer.outcome, elapsed + answer.elapsed, answer.canceled⟩)
  | left + 1 => .call request fun answer =>
    .note (.exchange request answer.outcome answer.elapsed) <|
      match answer.outcome with
      | .ok _ => .done ⟨answer.outcome, elapsed + answer.elapsed, answer.canceled⟩
      | .error error =>
        if answer.canceled then .done ⟨answer.outcome, elapsed + answer.elapsed, true⟩
        else
          let wait := retryWait options.retryWait attempt
          .note (.retry (attempt + 1) (options.retry + 1) wait error.message) <|
            .wait wait fun _ => send options request (attempt + 1) (elapsed + answer.elapsed + wait) left

/-- The scope and the captured values after the captures of a response; one that does not resolve is left out. -/
def takeCaptures (reply : Reply) (json : Option Json) (captures : List Capture) (scope : Scope) : Scope × Dict Json :=
  captures.foldl (fun (scope, captured) capture =>
    match Capture.take json reply.headers capture.path with
    | .ok value => (scope.capture capture.name value, captured.insert capture.name value)
    | .error _ => (scope, captured)) (scope, [])

/-- The facts of a response for assertions. -/
def facts (reply : Reply) (json : Option Json) : Facts :=
  ⟨reply.status, reply.millis, reply.headers, json, reply.body⟩

/-- The result of a step that got a response, and the scope after it. -/
def judge (draws : Template.Draws) (scope : Scope) (step : Step) (pending : StepResult) (request : Request)
    (reply : Reply) : StepResult × Scope :=
  let json := reply.json?
  let (scope, captured) := takeCaptures reply json step.captures scope
  let verdicts := Assertion.evaluateAll (draws.part 2) scope (some (facts reply json)) step.asserts
  let failures := (verdicts.filter (!·.pass)).map Verdict.detail
  ({ pending with
      status := if failures.isEmpty then .passed else .failed
      request := some request.snapshot
      response := some reply.snapshot
      millis := reply.millis
      failures, captured }, scope)

/-- The result of a step that got no response. -/
def unanswered (draws : Template.Draws) (scope : Scope) (step : Step) (pending : StepResult) (request : Request)
    (error : NetworkError) (elapsed : Nat) : StepResult :=
  { pending with
    status := .failed
    request := some request.snapshot
    millis := elapsed
    failures := (Assertion.evaluateAll (draws.part 2) scope none step.asserts).map Verdict.detail
    error := some error.message }

/-- The outcome of executing a step. -/
structure Executed where
  result : StepResult
  scope : Scope
  canceled : Bool
  elapsed : Nat

/-- One step is executed: its request is made and sent, and its result judged. -/
def executeStep (options : RunOptions) (environment : Environment) (draws : Template.Draws) (step : Step)
    (pending : StepResult) (scope : Scope) (canceled : Bool) : Interaction Executed :=
  match request options environment draws scope step with
  | .error error => .done ⟨{ pending with status := .failed, error := some error.message }, scope, canceled, 0⟩
  | .ok request => do
    let sent ← send step.options request 0 0 step.options.retry
    match sent.outcome with
    | .ok reply =>
      let (result, scope) := judge draws scope step pending request reply
      return ⟨result, scope, sent.canceled, sent.elapsed⟩
    | .error error =>
      return ⟨unanswered draws scope step pending request error sent.elapsed, scope, sent.canceled, sent.elapsed⟩

/-- A run in progress. -/
structure State where
  run : Run
  scope : Scope
  /-- The run has been canceled. -/
  canceled : Bool
  /-- A failure has ended the run early. -/
  aborted : Bool := false
  /-- The milliseconds since the start. -/
  elapsed : Nat := 0

namespace State

/-- The result of a step so far. -/
def result (state : State) (step : Step) (index : Nat) : StepResult :=
  state.run.results.getD index (StepResult.ofStep step)

/-- The state with the result of a step. -/
def setResult (state : State) (index : Nat) (result : StepResult) : State :=
  { state with run := { state.run with results := state.run.results.set index result } }

/-- Why a step is not to run, if it is not: the run is canceled or has ended early, or a step it depends on did not
pass. -/
def skipReason? (plan : Plan) (state : State) (index : Nat) : Option String :=
  if state.canceled then some "run canceled"
  else if state.aborted then some "aborted after an earlier failure"
  else
    let sources := (plan.dependencies.getD index []).filterMap (state.run.results[·]?)
    (sources.find? (·.status != .passed)).map fun result =>
      "upstream step '" ++ result.stepId ++ "' " ++ result.status.name

/-- The scope with the values that the edges into a step give new names. -/
def takeOver (plan : Plan) (state : State) (index : Nat) : Scope :=
  (plan.inbound.getD index []).foldl (fun scope (source, mapping) =>
    let captured := (state.run.results[source]?.map StepResult.captured).getD []
    mapping.foldl (fun scope (held, name) =>
      match captured.find? held with
      | some value => scope.capture name value
      | none => scope) scope) state.scope

/-- The event that tells the result of a step. -/
def event (state : State) (result : StepResult) : Note := .progress (.step (StepEvent.ofResult state.run result))

/-- A step is skipped for a reason. -/
def skip (state : State) (step : Step) (index : Nat) (reason : String) : Interaction State :=
  let result : StepResult := { state.result step index with status := .skipped, error := some reason }
  .note (state.event result) (.done (state.setResult index result))

end State

/-- One step of a run: skipped, or executed and its result kept. A result that comes after the run was canceled is
thrown away. -/
def runStep (options : RunOptions) (environment : Environment) (draws : Template.Draws) (plan : Plan) (step : Step)
    (index : Nat) (state : State) : Interaction State :=
  match state.skipReason? plan index with
  | some reason =>
    let stopped : State := { state with run := { state.run with canceled := state.run.canceled || state.canceled } }
    stopped.skip step index reason
  | none =>
    let scope := state.takeOver plan index
    let running : StepResult := { state.result step index with status := .running }
    let state := state.setResult index running
    .note (state.event running) do
      let executed ← executeStep options environment (draws.part index) step running scope state.canceled
      let state : State := { state with
        scope := executed.scope
        canceled := executed.canceled
        elapsed := state.elapsed + executed.elapsed }
      if executed.canceled then
        let stopped : State := { state with run := { state.run with canceled := true } }
        stopped.skip step index "run canceled while request was in flight"
      else
        let aborted := if executed.result.status = .failed then options.abortOnFailure else state.aborted
        let state : State := { state.setResult index executed.result with aborted := aborted }
        .note (state.event executed.result) (.done state)

/-- The steps at the given indices, one after another. -/
def runSteps (options : RunOptions) (environment : Environment) (draws : Template.Draws) (plan : Plan)
    (steps : List Step) : List Nat → State → Interaction State
  | [], state => .done state
  | index :: rest, state =>
    match steps[index]? with
    | some step => do
      let state ← runStep options environment draws plan step index state
      runSteps options environment draws plan steps rest state
    | none => runSteps options environment draws plan steps rest state

/-- The status of a run whose steps are all done. -/
def finalStatus (run : Run) : RunStatus :=
  if run.canceled || 0 < run.count .failed then .failed else .passed

/-- What a run starts from: where it leads, its variables, its identifier, its draws (which tell the time), and whether
it is canceled from the start. -/
structure Start where
  environment : Environment
  scope : Scope
  runId : String
  draws : Template.Draws := {}
  canceled : Bool := false

/-- The start of a run in an environment. -/
def Start.ofEnvironment (environment : Environment) (runId : String) (draws : Template.Draws) : Start :=
  { environment, scope := Scope.ofBindings environment.bindings, runId, draws }

/-- A scenario carried out from a start. A scenario or environment with a fault is not run at all. -/
def run (options : RunOptions) (scenario : Scenario) (start : Start) : Interaction (Except RunError Run) :=
  match scenario.validate with
  | .error error => .done (.error (.scenario error))
  | .ok plan =>
    match start.environment.check with
    | .error error => .done (.error (.environment error))
    | .ok () => do
      let begun : Run := { Run.ofScenario start.runId scenario start.environment.name with
        status := .running
        startedAt := some start.draws.now }
      let state ← runSteps options start.environment start.draws plan scenario.steps plan.order
        { run := begun, scope := start.scope, canceled := start.canceled }
      let finished : Run := { state.run with
        status := finalStatus state.run
        finishedAt := some (start.draws.now.after state.elapsed) }
      .note (.progress (ProgressEvent.ofRun finished)) (.done (.ok finished))

end Engine
end Runbook

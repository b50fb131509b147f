import Runbook.Proofs.Batch.Alike
import Runbook.Proofs.Run.Course

/-!
What a run is apart from the times of its answers. A run takes its way without regard to how long its answers take: only
the end of the run and the duration of steps without a response tell of it.
-/

namespace Runbook

/-- The result of a step, without the time that passed until an error. The time until a response is part of the
response. -/
def StepResult.untimed (result : StepResult) : StepResult :=
  { result with millis := if result.error.isSome then 0 else result.millis }

/-- The record of a run, without its end and the times until errors. -/
def Run.untimed (run : Run) : Run :=
  { run with finishedAt := none, results := run.results.map StepResult.untimed }

namespace Engine

open Interaction

variable {options : RunOptions} {environment : Environment} {draws : Template.Draws} {plan : Plan} {step : Step}

/-- How a request is answered in the end does not depend on the time that passed before. -/
theorem send_alike (limits : StepOptions) (request : Request) (attempt elapsed other left : Nat) :
    Alike (fun first second : Sent => first.outcome = second.outcome ∧ first.canceled = second.canceled)
      (send limits request attempt elapsed left) (send limits request attempt other left) := by
  induction left generalizing attempt elapsed other with
  | zero => exact .call fun _ _ outcome canceled => .note (.done ⟨outcome, canceled⟩)
  | succ left ih =>
    unfold send
    refine .call fun answer again outcome canceled => .note ?_
    rw [← outcome, ← canceled]
    cases answer.outcome with
    | ok reply => exact .done ⟨rfl, rfl⟩
    | error error =>
      cases answer.canceled with
      | true => exact .done ⟨rfl, rfl⟩
      | false => exact .note (.wait fun _ => ih _ _ _)

/-- Two ways to execute a step that differ in time only. -/
structure Executed.SameButTime (first second : Executed) : Prop where
  result : first.result.untimed = second.result.untimed
  scope : first.scope = second.scope
  canceled : first.canceled = second.canceled

theorem executeStep_alike {pending other : StepResult} (same : pending.untimed = other.untimed) (scope : Scope)
    {canceled flag : Bool} (token : canceled = flag) :
    Alike Executed.SameButTime (executeStep options environment draws step pending scope canceled)
      (executeStep options environment draws step other scope flag) := by
  simp only [StepResult.untimed, StepResult.mk.injEq] at same
  obtain ⟨stepId, name, -, asked, response, -, failures, error, captured⟩ := same
  unfold executeStep
  cases request options environment draws scope step with
  | error error =>
    refine .done ⟨?_, rfl, token⟩
    simp only [StepResult.untimed, stepId, name, asked, response, failures, captured, Option.isSome_some, if_true]
  | ok request =>
    refine Alike.bind (send_alike step.options request 0 0 0 step.options.retry) ?_
    rintro sent again ⟨outcome, canceled⟩
    rw [← outcome]
    cases sent.outcome with
    | ok reply =>
      refine .done ⟨?_, rfl, canceled⟩
      simp only [StepResult.untimed, stepId, name, error]
    | error cause =>
      refine .done ⟨?_, rfl, canceled⟩
      simp only [unanswered, StepResult.untimed, stepId, name, response, captured, Option.isSome_some, if_true]

theorem getElem?_untimed (run : Run) (index : Nat) :
    run.untimed.results[index]? = run.results[index]?.map StepResult.untimed := List.getElem?_map

/-- Whether a step is to run does not depend on the times of the steps before it. -/
theorem skipReason?_untimed (state : State) (index : Nat) :
    State.skipReason? plan { state with run := state.run.untimed } index = state.skipReason? plan index := by
  have sources : (plan.dependencies.getD index []).filterMap (state.run.untimed.results[·]?) =
      ((plan.dependencies.getD index []).filterMap (state.run.results[·]?)).map StepResult.untimed := by
    rw [List.map_filterMap]
    exact List.filterMap_congr fun source _ => getElem?_untimed state.run source
  simp only [State.skipReason?, sources, List.find?_map, Option.map_map]
  rfl

/-- Nor does what a step takes over. -/
theorem takeOver_untimed (state : State) (index : Nat) :
    State.takeOver plan { state with run := state.run.untimed } index = state.takeOver plan index := by
  have captured (source : Nat) : state.run.untimed.results[source]?.map StepResult.captured =
      state.run.results[source]?.map StepResult.captured := by
    rw [getElem?_untimed, Option.map_map]
    rfl
  simp only [State.takeOver, captured]

theorem running_untimed {first second : StepResult} (same : first.untimed = second.untimed) :
    (running first).untimed = (running second).untimed := by
  show running first.untimed = running second.untimed
  rw [same]

theorem skipped_untimed {first second : StepResult} (same : first.untimed = second.untimed) (reason : String) :
    (skipped first reason).untimed = (skipped second reason).untimed := by
  show (skipped first.untimed reason).untimed = (skipped second.untimed reason).untimed
  rw [same]

/-- Two states of a run that differ in time only. -/
structure State.SameButTime (first second : State) : Prop where
  run : first.run.untimed = second.run.untimed
  scope : first.scope = second.scope
  canceled : first.canceled = second.canceled
  aborted : first.aborted = second.aborted

/-- The state in which a step is not to run. -/
def State.stopped (state : State) : State :=
  { state with run := { state.run with canceled := state.run.canceled || state.canceled } }

/-- The state after a step was executed, before its result is kept or thrown away. -/
def State.after (state : State) (executed : Executed) : State :=
  { state with
    scope := executed.scope
    canceled := executed.canceled
    elapsed := state.elapsed + executed.elapsed }

/-- The state in which the result of a step is thrown away. -/
def State.discarding (state : State) : State := { state with run := { state.run with canceled := true } }

/-- The state in which the result of a step is kept. -/
def State.keep (options : RunOptions) (index : Nat) (state : State) (result : StepResult) : State :=
  { state.setResult index result with
    aborted := if result.status = .failed then options.abortOnFailure else state.aborted }

/-- What follows once a step was executed. -/
def conclude (options : RunOptions) (step : Step) (index : Nat) (state : State) (executed : Executed) :
    Interaction State :=
  if executed.canceled then
    (state.after executed).discarding.skip step index "run canceled while request was in flight"
  else
    .note (((state.after executed).keep options index executed.result).event executed.result)
      (.done ((state.after executed).keep options index executed.result))

theorem runStep_eq (index : Nat) (state : State) :
    runStep options environment draws plan step index state =
      match state.skipReason? plan index with
      | some reason => state.stopped.skip step index reason
      | none => .note ((state.setResult index (running (state.result step index))).event
          (running (state.result step index))) <|
        (executeStep options environment (draws.part index) step (running (state.result step index))
          (state.takeOver plan index) state.canceled).bind
            (conclude options step index (state.setResult index (running (state.result step index)))) := rfl

namespace State.SameButTime

variable {first second : State} (same : first.SameButTime second)
include same

theorem skipReason?_eq (index : Nat) : first.skipReason? plan index = second.skipReason? plan index := by
  rw [← skipReason?_untimed first, ← skipReason?_untimed second]
  simp only [State.skipReason?, same.run, same.canceled, same.aborted]

theorem takeOver_eq (index : Nat) : first.takeOver plan index = second.takeOver plan index := by
  rw [← takeOver_untimed first, ← takeOver_untimed second]
  simp only [State.takeOver, same.run, same.scope]

theorem result (index : Nat) : (first.result step index).untimed = (second.result step index).untimed := by
  have untimed (state : State) : (state.result step index).untimed =
      state.run.untimed.results.getD index (StepResult.ofStep step).untimed := by
    simp only [State.result, List.getD_eq_getElem?_getD, getElem?_untimed]
    cases state.run.results[index]? <;> rfl
  rw [untimed, untimed, same.run]

theorem setResult {result other : StepResult} (results : result.untimed = other.untimed) (index : Nat) :
    (first.setResult index result).SameButTime (second.setResult index other) where
  run := by
    have untimed (state : State) (result : StepResult) : (state.setResult index result).run.untimed =
        { state.run.untimed with results := state.run.untimed.results.set index result.untimed } := by
      simp only [State.setResult, Run.untimed, List.map_set]
    rw [untimed, untimed, same.run, results]
  scope := same.scope
  canceled := same.canceled
  aborted := same.aborted

theorem stopped : first.stopped.SameButTime second.stopped where
  run := by
    show { first.run.untimed with canceled := first.run.untimed.canceled || first.canceled } = _
    rw [same.run, same.canceled]
    rfl
  scope := same.scope
  canceled := same.canceled
  aborted := same.aborted

theorem skip_alike (index : Nat) (reason : String) :
    Alike State.SameButTime (first.skip step index reason) (second.skip step index reason) :=
  .note (.done (same.setResult (skipped_untimed (same.result index) reason) index))

theorem after {executed other : Executed} (again : executed.SameButTime other) :
    (first.after executed).SameButTime (second.after other) :=
  ⟨same.run, again.scope, again.canceled, same.aborted⟩

theorem discarding : first.discarding.SameButTime second.discarding where
  run := by
    show { first.run.untimed with canceled := true } = _
    rw [same.run]
    rfl
  scope := same.scope
  canceled := same.canceled
  aborted := same.aborted

theorem keep {result other : StepResult} (results : result.untimed = other.untimed) (index : Nat) :
    (first.keep options index result).SameButTime (second.keep options index other) where
  run := (same.setResult results index).run
  scope := same.scope
  canceled := same.canceled
  aborted := by
    have status : result.status = other.status := by
      show result.untimed.status = other.untimed.status
      rw [results]
    simp only [State.keep, status, same.aborted]

theorem conclude_alike (index : Nat) {executed other : Executed} (again : executed.SameButTime other) :
    Alike State.SameButTime (conclude options step index first executed)
      (conclude options step index second other) := by
  unfold conclude
  rw [← again.canceled]
  cases executed.canceled with
  | true => exact (same.after again).discarding.skip_alike index _
  | false => exact .note (.done ((same.after again).keep again.result index))

/-- From states that differ in time only, a step is taken alike. -/
theorem runStep_alike (index : Nat) :
    Alike State.SameButTime (runStep options environment draws plan step index first)
      (runStep options environment draws plan step index second) := by
  rw [runStep_eq, runStep_eq, same.skipReason?_eq, same.takeOver_eq]
  cases second.skipReason? plan index with
  | some reason => exact same.stopped.skip_alike index reason
  | none =>
    have begun : (running (first.result step index)).untimed = (running (second.result step index)).untimed :=
      running_untimed (same.result index)
    exact .note ((executeStep_alike begun _ same.canceled).bind fun executed other again =>
      (same.setResult begun index).conclude_alike index again)

end State.SameButTime

/-- From states that differ in time only, the steps are taken alike. -/
theorem runSteps_alike (steps : List Step) (indices : List Nat) {first second : State}
    (same : first.SameButTime second) :
    Alike State.SameButTime (runSteps options environment draws plan steps indices first)
      (runSteps options environment draws plan steps indices second) := by
  induction indices generalizing first second with
  | nil => exact .done same
  | cons index rest ih =>
    unfold runSteps
    cases steps[index]? with
    | some step => exact (same.runStep_alike index).bind fun _ _ again => ih again
    | none => exact ih same

theorem finalStatus_untimed (run : Run) : finalStatus run.untimed = finalStatus run := by
  simp only [finalStatus, Run.count, Run.untimed, List.countP_map]
  rfl

/-- A run takes the same way whatever time its answers take, and comes to the same result apart from the times. -/
theorem run_sameOn (options : RunOptions) (scenario : Scenario) (start : Start) :
    SameOn (Except.map Run.untimed) (Engine.run options scenario start) (Engine.run options scenario start) := by
  unfold Engine.run
  cases scenario.validate with
  | error error => exact .done rfl
  | ok plan =>
    cases start.environment.check with
    | error error => exact .done rfl
    | ok _ =>
      refine Alike.bind (runSteps_alike scenario.steps plan.order ⟨rfl, rfl, rfl, rfl⟩) ?_
      intro first second same
      have ends (state : State) : (finished start state).untimed =
          { state.run.untimed with status := finalStatus state.run.untimed } := by
        rw [finalStatus_untimed]
        rfl
      refine .note (.done (congrArg Except.ok ?_))
      exact (ends first).trans (same.run ▸ (ends second).symm)

end Engine
end Runbook

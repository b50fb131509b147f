import Runbook.Proofs.Batch.Untimed

/-!
What a run is made of: the requests of its steps, each sent with its retries, and progress events before, between and
after them. So what holds of each of these, and is kept where one interaction follows another, holds of the whole run.

One such property is to tell what comes back for each request, at once and exactly one time. A run does so, whichever of
its attempts fail, are repeated or come too late.
-/

namespace Runbook

/-- A property of interactions that every result and every progress event keeps, and that two interactions one after
the other have when both do. -/
structure Interaction.Composes (holds : {α : Type} → Interaction α → Prop) : Prop where
  done {α : Type} (result : α) : holds (.done result)
  progress {α : Type} (event : ProgressEvent) {rest : Interaction α} (further : holds rest) :
    holds (.note (.progress event) rest)
  bind {α β : Type} {interaction : Interaction α} {next : α → Interaction β} (first : holds interaction)
    (further : ∀ value, holds (next value)) : holds (interaction.bind next)

namespace Engine

variable {options : RunOptions} {environment : Environment} {draws : Template.Draws} {plan : Plan} {step : Step}
  {holds : {α : Type} → Interaction α → Prop} (composes : Interaction.Composes holds)
include composes

/-- A step sends one request at most. -/
theorem executeStep_holds (sends : ∀ request, holds (send step.options request 0 0 step.options.retry))
    (pending : StepResult) (scope : Scope) (canceled : Bool) :
    holds (executeStep options environment draws step pending scope canceled) := by
  unfold executeStep
  cases request options environment draws scope step with
  | error error => exact composes.done _
  | ok request =>
    apply composes.bind (sends request)
    intro sent
    cases sent.outcome with
    | ok reply => exact composes.done _
    | error error => exact composes.done _

theorem skip_holds (state : State) (index : Nat) (reason : String) : holds (state.skip step index reason) :=
  composes.progress _ (composes.done _)

/-- What follows once a step was executed sends nothing, whether its result is kept or thrown away. -/
theorem conclude_holds (index : Nat) (state : State) (executed : Executed) :
    holds (conclude options step index state executed) := by
  unfold conclude
  cases executed.canceled with
  | true => exact skip_holds composes _ index _
  | false => exact composes.progress _ (composes.done _)

theorem runStep_holds (sends : ∀ request, holds (send step.options request 0 0 step.options.retry)) (index : Nat)
    (state : State) : holds (runStep options environment draws plan step index state) := by
  rw [runStep_eq]
  cases state.skipReason? plan index with
  | some reason => exact skip_holds composes _ index reason
  | none =>
    refine composes.progress _ (composes.bind (executeStep_holds composes sends _ _ _) fun executed => ?_)
    exact conclude_holds composes index _ executed

theorem runSteps_holds {steps : List Step}
    (sends : ∀ step ∈ steps, ∀ request, holds (send step.options request 0 0 step.options.retry)) (indices : List Nat)
    (state : State) : holds (runSteps options environment draws plan steps indices state) := by
  induction indices generalizing state with
  | nil => exact composes.done state
  | cons index rest ih =>
    unfold runSteps
    cases found : steps[index]? with
    | some step => exact composes.bind (runStep_holds composes (sends step (List.mem_of_getElem? found)) index state) ih
    | none => exact ih state

/-- What holds of every request that a step of a scenario may send holds of its runs. -/
theorem run_holds {scenario : Scenario}
    (sends : ∀ step ∈ scenario.steps, ∀ request, holds (send step.options request 0 0 step.options.retry))
    (options : RunOptions) (start : Start) : holds (run options scenario start) := by
  unfold run
  cases scenario.validate with
  | error error => exact composes.done _
  | ok plan =>
    cases start.environment.check with
    | error error => exact composes.done _
    | ok _ =>
      apply composes.bind (runSteps_holds composes sends plan.order _)
      intro state
      exact composes.progress _ (composes.done _)

end Engine

namespace Interaction

variable {α β : Type}

/-- Every request is followed at once by the note of its exchange, and no other note is that of an exchange. -/
inductive TellsExchanges : Interaction α → Prop
  | done (result : α) : TellsExchanges (.done result)
  | call {request : Request} {rest : Answer → Interaction α} (further : ∀ answer, TellsExchanges (rest answer)) :
      TellsExchanges (.call request fun answer =>
        .note (.exchange request answer.outcome answer.elapsed) (rest answer))
  | wait {millis : Nat} {resume : Bool → Interaction α} (further : ∀ canceled, TellsExchanges (resume canceled)) :
      TellsExchanges (.wait millis resume)
  | note {content : Note} {rest : Interaction α} (other : content.request? = none) (further : TellsExchanges rest) :
      TellsExchanges (.note content rest)

/-- An interaction followed by another one tells every exchange when both do. -/
theorem TellsExchanges.bind {interaction : Interaction α} {next : α → Interaction β}
    (tells : TellsExchanges interaction) (further : ∀ value, TellsExchanges (next value)) :
    TellsExchanges (interaction.bind next) := by
  induction tells with
  | done result => exact further result
  | call _ ih => exact .call ih
  | wait _ ih => exact .wait ih
  | note other _ ih => exact .note other ih

theorem composes_tellsExchanges : Composes TellsExchanges where
  done := .done
  progress _ _ further := .note rfl further
  bind first further := first.bind further

end Interaction

namespace Engine

open Interaction

/-- Every attempt to send a request is told, the last one as well as those that others follow. -/
theorem send_tells (limits : StepOptions) (request : Request) (attempt elapsed left : Nat) :
    TellsExchanges (send limits request attempt elapsed left) := by
  induction left generalizing attempt elapsed with
  | zero => exact .call fun answer => .done _
  | succ left ih =>
    unfold send
    apply TellsExchanges.call
    intro answer
    cases answer.outcome with
    | ok reply => exact .done _
    | error error =>
      cases answer.canceled with
      | true => exact .done _
      | false => exact .note rfl (.wait fun _ => ih _ _)

/-- A run tells every exchange. -/
theorem run_tells (options : RunOptions) (scenario : Scenario) (start : Start) :
    TellsExchanges (run options scenario start) :=
  run_holds composes_tellsExchanges (fun step _ request => send_tells step.options request 0 0 step.options.retry)
    options start

end Engine
end Runbook

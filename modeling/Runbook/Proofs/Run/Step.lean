import Runbook.Proofs.Run.Runs
import Runbook.Run.Engine

/-!
What one step of a run can do. Its request cannot be made, is answered, or is not answered; the step is skipped,
executed with its result kept, or executed with its result thrown away. Whatever follows about runs is derived from
these cases.
-/

namespace Runbook

/-- The statuses that a step keeps: it passed, failed or was skipped. -/
theorem StepStatus.isTerminal_iff {status : StepStatus} :
    status.isTerminal = true ↔ status = .passed ∨ status = .failed ∨ status = .skipped := by
  cases status <;> simp [isTerminal]

/-- A note of an attempt to send a request. -/
def Note.IsAttempt (request : Request) : Note → Prop
  | .exchange sent _ _ => sent = request
  | .retry .. => True
  | .progress _ => False

/-- The request that a note says was sent. -/
def Note.request? : Note → Option Request
  | .exchange request _ _ => some request
  | .retry .. | .progress _ => none

namespace Engine

open Interaction

variable {executor : Executor} {options : RunOptions} {environment : Environment} {draws : Template.Draws}
  {plan : Plan} {step : Step}

theorem bind_eq {α β : Type} (interaction : Interaction α) (next : α → Interaction β) :
    interaction >>= next = interaction.bind next := rfl

/-- The notes are those of attempts to send one request, and they tell every request sent. -/
structure Attempts (request : Request) (world : World Unit) (notes : List Note) (final : World Unit) : Prop where
  isAttempt : ∀ note ∈ notes, note.IsAttempt request
  requests : final.requests = world.requests ++ notes.filterMap Note.request?

theorem Attempts.refl (request : Request) (world : World Unit) : Attempts request world [] world :=
  ⟨by simp, by simp⟩

/-- An attempt follows the sending of the request. -/
theorem Attempts.exchange {request : Request} {world final : World Unit} {served : Served} {notes : List Note}
    (attempts : Attempts request (world.answered request served) notes final) (outcome : Outcome) (elapsed : Nat) :
    Attempts request world (.exchange request outcome elapsed :: notes) final where
  isAttempt note member := by
    rcases List.mem_cons.mp member with rfl | later
    · rfl
    · exact attempts.isAttempt note later
  requests := by rw [attempts.requests, World.requests_answered]; simp [Note.request?]

/-- A wait goes before another attempt. -/
theorem Attempts.retry {request : Request} {world final : World Unit} {millis : Nat} {notes : List Note}
    (attempts : Attempts request (world.waited millis) notes final) (attempt total wait : Nat) (cause : String) :
    Attempts request world (.retry attempt total wait cause :: notes) final where
  isAttempt note member := by
    rcases List.mem_cons.mp member with rfl | later
    · trivial
    · exact attempts.isAttempt note later
  requests := by rw [attempts.requests, World.requests_waited]; rfl

/-- Sending a request leaves the notes of its attempts, and learns at its end whether the run is canceled. -/
theorem send_runs {limits : StepOptions} {request : Request} {attempt elapsed left : Nat} {world final : World Unit}
    {notes : List Note} {sent : Sent}
    (runs : Runs executor (send limits request attempt elapsed left) world notes sent final) :
    Attempts request world notes final ∧ sent.canceled = final.canceled := by
  induction left generalizing attempt elapsed world notes with
  | zero =>
    cases runs with
    | call answer rest =>
      cases rest with
      | note rest =>
        cases rest
        exact ⟨(Attempts.refl _ _).exchange _ _, rfl⟩
  | succ left ih =>
    cases runs with
    | @call _ _ _ _ served _ _ answer rest =>
      cases rest with
      | note rest =>
        cases outcome : served.outcome with
        | ok reply =>
          simp only [outcome] at rest
          cases rest
          exact ⟨(Attempts.refl _ _).exchange _ _, rfl⟩
        | error error =>
          simp only [outcome] at rest
          split at rest
          · next canceled =>
            cases rest
            exact ⟨(Attempts.refl _ _).exchange _ _, canceled.symm⟩
          · cases rest with
            | note rest =>
              cases rest with
              | wait rest =>
                obtain ⟨attempts, told⟩ := ih rest
                exact ⟨(attempts.retry _ _ _ _).exchange _ _, told⟩

/-- What executing a step can do. -/
inductive Executes (executor : Executor) (options : RunOptions) (environment : Environment) (draws : Template.Draws)
    (step : Step) (pending : StepResult) (scope : Scope) (canceled : Bool) (world : World Unit) :
    List Note → Executed → World Unit → Prop where
  | unsendable {error : RequestError} (fault : request options environment draws scope step = .error error) :
      Executes executor options environment draws step pending scope canceled world []
        ⟨{ pending with status := .failed, error := some error.message }, scope, canceled, 0⟩ world
  | answered {made : Request} {sent : Sent} {reply : Reply} {notes : List Note} {final : World Unit}
      (formed : request options environment draws scope step = .ok made)
      (sends : Runs executor (send step.options made 0 0 step.options.retry) world notes sent final)
      (outcome : sent.outcome = .ok reply) :
      Executes executor options environment draws step pending scope canceled world notes
        ⟨(judge draws scope step pending made reply).1, (judge draws scope step pending made reply).2, sent.canceled,
          sent.elapsed⟩ final
  | unanswered {made : Request} {sent : Sent} {error : NetworkError} {notes : List Note} {final : World Unit}
      (formed : request options environment draws scope step = .ok made)
      (sends : Runs executor (send step.options made 0 0 step.options.retry) world notes sent final)
      (outcome : sent.outcome = .error error) :
      Executes executor options environment draws step pending scope canceled world notes
        ⟨unanswered draws scope step pending made error sent.elapsed, scope, sent.canceled, sent.elapsed⟩ final

variable {pending : StepResult} {scope : Scope} {canceled : Bool} {world final : World Unit} {notes : List Note}
  {executed : Executed}

theorem executeStep_runs
    (runs : Runs executor (executeStep options environment draws step pending scope canceled) world notes executed
      final) : Executes executor options environment draws step pending scope canceled world notes executed final := by
  unfold executeStep at runs
  split at runs
  · next error fault =>
    cases runs
    exact .unsendable fault
  · next made formed =>
    rw [bind_eq] at runs
    obtain ⟨sent, first, second, middle, rfl, sends, rest⟩ := runs_bind_iff.mp runs
    cases outcome : sent.outcome with
    | ok reply =>
      simp only [outcome] at rest
      cases rest
      rw [List.append_nil]
      exact .answered formed sends outcome
    | error error =>
      simp only [outcome] at rest
      cases rest
      rw [List.append_nil]
      exact .unanswered formed sends outcome

namespace Executes

variable (executes : Executes executor options environment draws step pending scope canceled world notes executed final)
include executes

/-- An executed step passed or failed. -/
theorem status : executed.result.status = .passed ∨ executed.result.status = .failed := by
  cases executes with
  | unsendable => exact .inr rfl
  | answered =>
    simp only [judge]
    split
    · exact .inl rfl
    · exact .inr rfl
  | unanswered => exact .inr rfl

theorem ne_skipped : executed.result.status ≠ .skipped := by
  rcases executes.status with passed | failed
  · simp [passed]
  · simp [failed]

theorem stepId : executed.result.stepId = pending.stepId := by cases executes <;> rfl

theorem name : executed.result.name = pending.name := by cases executes <;> rfl

/-- The notes are those of attempts to send the request that the result shows. -/
theorem attempts : final.requests = world.requests ++ notes.filterMap Note.request? ∧
    ∀ note ∈ notes, ∃ made, note.IsAttempt made ∧ executed.result.request = some made.snapshot := by
  cases executes with
  | unsendable => simp
  | answered _ sends _ =>
    obtain ⟨attempts, -⟩ := send_runs sends
    exact ⟨attempts.requests, fun note member => ⟨_, attempts.isAttempt note member, rfl⟩⟩
  | unanswered _ sends _ =>
    obtain ⟨attempts, -⟩ := send_runs sends
    exact ⟨attempts.requests, fun note member => ⟨_, attempts.isAttempt note member, rfl⟩⟩

/-- A step that starts with the cancel flag of the world ends with it. -/
theorem canceled_eq (token : canceled = world.canceled) : executed.canceled = final.canceled := by
  cases executes with
  | unsendable => exact token
  | answered _ sends _ => exact (send_runs sends).2
  | unanswered _ sends _ => exact (send_runs sends).2

/-- While no answer cancels, the step does not. -/
theorem steady (steady : executor.Steady) :
    final.canceled = world.canceled := by
  cases executes with
  | unsendable => rfl
  | answered _ sends _ => exact sends.canceled_eq steady
  | unanswered _ sends _ => exact sends.canceled_eq steady

end Executes

/-- The result of a step that is skipped for a reason. -/
def skipped (pending : StepResult) (reason : String) : StepResult :=
  { pending with status := .skipped, error := some reason }

/-- The result of a step while it is executed. -/
def running (pending : StepResult) : StepResult := { pending with status := .running }

/-- What one step of a run can do from a state: the notes it leaves, the state it leads to, and the surroundings. -/
inductive Takes (executor : Executor) (options : RunOptions) (environment : Environment) (draws : Template.Draws)
    (plan : Plan) (step : Step) (index : Nat) (state : State) (world : World Unit) :
    List Note → State → World Unit → Prop where
  /-- The step is not to run. -/
  | skip {reason : String} (why : state.skipReason? plan index = some reason) :
      Takes executor options environment draws plan step index state world
        [state.event (skipped (state.result step index) reason)]
        { state with run := { state.run with
            canceled := state.run.canceled || state.canceled
            results := state.run.results.set index (skipped (state.result step index) reason) } }
        world
  /-- The step is executed, and its result kept. -/
  | keep {notes : List Note} {executed : Executed} {final : World Unit} (clear : state.skipReason? plan index = none)
      (executes : Executes executor options environment (draws.part index) step (running (state.result step index))
        (state.takeOver plan index) state.canceled world notes executed final)
      (kept : executed.canceled = false) :
      Takes executor options environment draws plan step index state world
        (state.event (running (state.result step index)) :: (notes ++ [state.event executed.result]))
        { run := { state.run with results := state.run.results.set index executed.result }
          scope := executed.scope
          canceled := false
          aborted := if executed.result.status = .failed then options.abortOnFailure else state.aborted
          elapsed := state.elapsed + executed.elapsed }
        final
  /-- The step is executed, and its result thrown away because the run was canceled meanwhile. -/
  | discard {notes : List Note} {executed : Executed} {final : World Unit}
      (clear : state.skipReason? plan index = none)
      (executes : Executes executor options environment (draws.part index) step (running (state.result step index))
        (state.takeOver plan index) state.canceled world notes executed final)
      (discarded : executed.canceled = true) :
      Takes executor options environment draws plan step index state world
        (state.event (running (state.result step index)) :: (notes ++
          [state.event (skipped (state.result step index) "run canceled while request was in flight")]))
        { run := { state.run with
            canceled := true
            results := state.run.results.set index
              (skipped (state.result step index) "run canceled while request was in flight") }
          scope := executed.scope
          canceled := true
          aborted := state.aborted
          elapsed := state.elapsed + executed.elapsed }
        final

theorem result_setResult {index : Nat} {state : State} (inside : index < state.run.results.length)
    (result : StepResult) : (state.setResult index result).result step index = result := by
  simp [State.setResult, State.result, List.getD_eq_getElem?_getD, inside]

theorem skip_runs {index : Nat} {state after : State} {reason : String}
    (runs : Runs executor (state.skip step index reason) world notes after final)
    (current : state.result step index = pending) :
    notes = [state.event (skipped pending reason)] ∧ after = state.setResult index (skipped pending reason) ∧
      final = world := by
  subst current
  cases runs with
  | note rest =>
    cases rest
    exact ⟨rfl, rfl, rfl⟩

theorem runStep_runs {index : Nat} {state after : State} (inside : index < state.run.results.length)
    (runs : Runs executor (runStep options environment draws plan step index state) world notes after final) :
    Takes executor options environment draws plan step index state world notes after final := by
  unfold runStep at runs
  split at runs
  · next reason why =>
    obtain ⟨rfl, rfl, rfl⟩ := skip_runs runs rfl
    exact .skip why
  · next clear =>
    cases runs with
    | note rest =>
      rw [bind_eq] at rest
      obtain ⟨executed, first, second, middle, rfl, left, right⟩ := runs_bind_iff.mp rest
      have executes := executeStep_runs left
      cases canceled : executed.canceled with
      | false =>
        simp only [canceled, Bool.false_eq_true, if_false] at right
        cases right with
        | note right =>
          cases right
          simp only [State.setResult, List.set_set]
          exact .keep clear executes canceled
      | true =>
        simp only [canceled, if_true] at right
        obtain ⟨rfl, rfl, rfl⟩ := skip_runs right (result_setResult inside (running (state.result step index)))
        simp only [State.setResult, List.set_set]
        exact .discard clear executes canceled

end Engine
end Runbook

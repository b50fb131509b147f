import Runbook.Proofs.Run.Step

/-!
Requests that cancel the run while they are in flight. Until there is one, the run goes the way it would go if nothing
canceled it; after it the request is not sent again.
-/

namespace Runbook.Interaction

variable {α : Type} {executor : Executor} {interaction : Interaction α} {world final : World Unit} {notes : List Note}
  {result : α}

/-- The executor with its answers as they are, except that none cancels the run. -/
def Executor.calm (executor : Executor) : Executor := fun earlier request =>
  (executor earlier request).map fun served => { served with cancels := false }

/-- The run is canceled while a request is in flight that is sent after the earlier ones. -/
def Executor.Trips (executor : Executor) (earlier : List Request) (request : Request) : Prop :=
  ∃ served, executor earlier request = some served ∧ served.cancels = true

theorem Executor.Answers.calm (answers : executor.Answers) : executor.calm.Answers := fun earlier request => by
  rw [Executor.calm, Option.isSome_map]
  exact answers earlier request

/-- An answer that does not cancel the run is the same without cancellation. -/
theorem Executor.calm_eq {earlier : List Request} {request : Request} {served : Served}
    (answer : executor earlier request = some served) (quiet : served.cancels = false) :
    executor.calm earlier request = some served := by
  rw [Executor.calm, answer, Option.map_some, ← quiet]

/-- A world that is canceled stays so. -/
theorem Runs.stays (runs : Runs executor interaction world notes result final) (canceled : world.canceled = true) :
    final.canceled = true := by
  induction runs with
  | done => exact canceled
  | call _ _ ih => exact ih (by simp [World.answered, canceled])
  | wait _ ih => exact ih canceled
  | note _ ih => exact ih canceled

/-- What ends without being canceled runs the same without cancellation. -/
theorem Runs.calm (runs : Runs executor interaction world notes result final) (quiet : final.canceled = false) :
    Runs executor.calm interaction world notes result final := by
  induction runs with
  | done => exact .done
  | @call request resume world final served notes result answer rest ih =>
    have uncanceled : served.cancels = false := Bool.eq_false_iff.mpr fun cancels => by
      rw [rest.stays (by simp [World.answered, cancels])] at quiet
      cases quiet
    exact .call (Executor.calm_eq answer uncanceled) (ih quiet)
  | wait _ ih => exact .wait (ih quiet)
  | note _ ih => exact .note (ih quiet)

/-- From the same world an interaction runs in one way only. -/
theorem Runs.deterministic {otherNotes : List Note} {otherResult : α} {otherFinal : World Unit}
    (runs : Runs executor interaction world notes result final)
    (other : Runs executor interaction world otherNotes otherResult otherFinal) :
    notes = otherNotes ∧ result = otherResult ∧ final = otherFinal := by
  induction runs generalizing otherNotes with
  | done =>
    cases other
    exact ⟨rfl, rfl, rfl⟩
  | call answer _ ih =>
    cases other with
    | call again rest =>
      obtain rfl := Option.some.inj (answer.symm.trans again)
      exact ih rest
  | wait _ ih =>
    cases other with
    | wait rest => exact ih rest
  | note _ ih =>
    cases other with
    | note rest =>
      obtain ⟨rfl, same⟩ := ih rest
      exact ⟨rfl, same⟩

/-- Calls are only ever added. -/
theorem Runs.exists_calls (runs : Runs executor interaction world notes result final) :
    ∃ made, final.calls = world.calls ++ made := by
  induction runs with
  | done => exact ⟨[], by simp⟩
  | @call request _ world _ _ _ _ _ _ ih =>
    obtain ⟨made, calls⟩ := ih
    exact ⟨(world.clock, request) :: made, by simp [calls, World.answered]⟩
  | wait _ ih => exact ih
  | note _ ih => exact ih

/-- Requests are only ever added. -/
theorem Runs.exists_requests (runs : Runs executor interaction world notes result final) :
    ∃ sent, final.requests = world.requests ++ sent := by
  obtain ⟨made, calls⟩ := runs.exists_calls
  exact ⟨made.map Prod.snd, by rw [World.requests, calls, List.map_append, World.requests]⟩

/-- Among the requests sent from one world to another there is one that cancels the run. -/
structure Interrupts (executor : Executor) (world final : World Unit) (earlier : List Request) (request : Request)
    (later : List Request) : Prop where
  requests : final.requests = world.requests ++ (earlier ++ request :: later)
  trips : executor.Trips (world.requests ++ earlier) request

namespace Interrupts

variable {earlier later : List Request} {request : Request}

/-- No request is sent from a world to itself. -/
theorem irrefl : ¬Interrupts executor world world earlier request later := fun interrupts => by
  simpa using interrupts.requests

/-- No request is sent by waiting. -/
theorem waited (interrupts : Interrupts executor world final earlier request later) (millis : Nat) :
    Interrupts executor (world.waited millis) final earlier request later :=
  ⟨interrupts.requests, interrupts.trips⟩

/-- The request that cancels the run is the next one, or one of those after it. -/
theorem answered_cases {made : Request} {served : Served} {sent : List Request}
    (interrupts : Interrupts executor world final earlier request later)
    (answer : executor world.requests made = some served)
    (more : final.requests = (world.answered made served).requests ++ sent) :
    (served.cancels = true ∧ later = sent) ∨
      ∃ rest, Interrupts executor (world.answered made served) final rest request later := by
  have split := interrupts.requests
  rw [more, World.requests_answered, List.append_assoc, List.append_cancel_left_eq] at split
  cases earlier with
  | nil =>
    obtain ⟨rfl, rfl⟩ := List.cons.inj split
    obtain ⟨other, again, cancels⟩ := interrupts.trips
    rw [List.append_nil, answer] at again
    exact .inl ⟨Option.some.inj again ▸ cancels, rfl⟩
  | cons first rest =>
    obtain ⟨rfl, -⟩ := List.cons.inj split
    refine .inr ⟨rest, ?_, ?_⟩
    · simpa using interrupts.requests
    · simpa using interrupts.trips

/-- A run is canceled once a request cancels it. -/
theorem canceled (interrupts : Interrupts executor world final earlier request later)
    (runs : Runs executor interaction world notes result final) : final.canceled = true := by
  induction runs generalizing earlier with
  | done => exact absurd interrupts irrefl
  | call answer rest ih =>
    obtain ⟨sent, more⟩ := rest.exists_requests
    rcases interrupts.answered_cases answer more with ⟨cancels, -⟩ | ⟨after, interrupts⟩
    · exact rest.stays (by simp [World.answered, cancels])
    · exact ih interrupts
  | wait _ ih => exact ih (interrupts.waited _)
  | note _ ih => exact ih interrupts

end Interrupts

end Runbook.Interaction

namespace Runbook.Engine

open Interaction

variable {executor : Executor} {world final : World Unit} {notes : List Note} {earlier later : List Request}
  {request : Request}

/-- A request that cancels the run is not sent again, whatever is left of its attempts. -/
theorem send_interrupted {limits : StepOptions} {made : Request} {attempt elapsed left : Nat} {sent : Sent}
    (interrupts : Interrupts executor world final earlier request later)
    (runs : Runs executor (send limits made attempt elapsed left) world notes sent final) : later = [] := by
  -- Where no attempt follows, the request that was answered is the last one.
  have last {world : World Unit} {earlier : List Request} {served : Served}
      (interrupts : Interrupts executor world (world.answered made served) earlier request later)
      (answer : executor world.requests made = some served) : later = [] := by
    rcases interrupts.answered_cases answer (List.append_nil _).symm with ⟨-, none⟩ | ⟨_, again⟩
    · exact none
    · exact absurd again Interrupts.irrefl
  induction left generalizing attempt elapsed world notes earlier with
  | zero =>
    cases runs with
    | call answer rest =>
      cases rest with
      | note rest =>
        cases rest
        exact last interrupts answer
  | succ left ih =>
    cases runs with
    | @call _ _ _ _ served _ _ answer rest =>
      cases rest with
      | note rest =>
        cases outcome : served.outcome with
        | ok reply =>
          simp only [outcome] at rest
          cases rest
          exact last interrupts answer
        | error error =>
          simp only [outcome] at rest
          split at rest
          · cases rest
            exact last interrupts answer
          · next calm =>
            obtain ⟨sent, more⟩ := rest.exists_requests
            rcases interrupts.answered_cases answer more with ⟨cancels, -⟩ | ⟨after, interrupts⟩
            · simp [cancels] at calm
            · cases rest with
              | note rest =>
                cases rest with
                | wait rest => exact ih (interrupts.waited _) rest

/-- A step whose request cancels the run sends no request after that, and learns that the run is canceled. -/
theorem Executes.interrupted {options : RunOptions} {environment : Environment} {draws : Template.Draws} {step : Step}
    {pending : StepResult} {scope : Scope} {canceled : Bool} {executed : Executed}
    (executes : Executes executor options environment draws step pending scope canceled world notes executed final)
    (interrupts : Interrupts executor world final earlier request later) :
    later = [] ∧ executed.canceled = true := by
  cases executes with
  | unsendable => exact absurd interrupts Interrupts.irrefl
  | answered _ sends _ =>
    exact ⟨send_interrupted interrupts sends, (send_runs sends).2.trans (interrupts.canceled sends)⟩
  | unanswered _ sends _ =>
    exact ⟨send_interrupted interrupts sends, (send_runs sends).2.trans (interrupts.canceled sends)⟩

end Runbook.Engine

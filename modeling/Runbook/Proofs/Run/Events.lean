import Runbook.Proofs.Progress.Stream
import Runbook.Proofs.Run.Chain

/-!
The events of a run: for each step in the order of the plan the event that it is skipped, or the event that it begins
and the event that it ended, and behind all steps the event that the run ended. A channel delivers the first of them.
-/

namespace Runbook.Engine

open Interaction

variable {executor : Executor} {options : RunOptions} {plan : Plan} {scenario : Scenario} {start : Start}

/-- The event that a step begins: it has no duration and no details. -/
def beginning (run : Run) (step : Step) : ProgressEvent :=
  .step {
    runId := run.id
    scenario := run.scenarioName
    stepId := step.id
    name := step.name
    status := .running
    millis := none
    details := [] }

/-- The event that a step ended: the status and the duration of its result, and as details the error before the failed
assertions. -/
def ending (run : Run) (step : Step) (result : StepResult) : ProgressEvent :=
  .step {
    runId := run.id
    scenario := run.scenarioName
    stepId := step.id
    name := step.name
    status := result.status
    millis := some result.millis
    details := result.error.toList ++ result.failures }

/-- The events of one step, given its result in the record of the run. -/
inductive Emits (run : Run) (step : Step) (result : StepResult) : List ProgressEvent → Prop where
  | skipped (status : result.status = .skipped) : Emits run step result [ending run step result]
  | executed (status : result.status = .passed ∨ result.status = .failed) :
      Emits run step result [beginning run step, ending run step result]
  /-- The result that the step came to was thrown away. -/
  | discarded (status : result.status = .skipped) (canceled : run.canceled = true)
      (error : result.error = some "run canceled while request was in flight") :
      Emits run step result [beginning run step, ending run step result]

/-- A terminal result is told by the event that its step ended. -/
theorem event?_stepNote {run : Run} {step : Step} {result : StepResult} (terminal : result.status.isTerminal = true)
    (stepId : result.stepId = step.id) (name : result.name = step.name) :
    (stepNote run result).event? = some (ending run step result) := by
  simp only [stepNote, Note.event?, StepEvent.ofResult, terminal, if_true, stepId, name, ending]

/-- Attempts to send a request are no events. -/
theorem AreAttempts.filterMap_event? {result : StepResult} {notes : List Note} (attempts : AreAttempts result notes) :
    notes.filterMap Note.event? = [] := by
  rw [List.filterMap_eq_nil_iff]
  intro note member
  obtain ⟨made, isAttempt, -⟩ := attempts note member
  cases note with
  | progress => cases isAttempt
  | exchange => rfl
  | retry => rfl

/-- The events among the notes of a step whose request was attempted. -/
theorem filterMap_event?_between {run : Run} {step : Step} {result : StepResult} {attempts : List Note}
    (terminal : result.status.isTerminal = true) (stepId : result.stepId = step.id) (name : result.name = step.name)
    (sent : AreAttempts result attempts) :
    (stepNote run (running (.ofStep step)) :: (attempts ++ [stepNote run result])).filterMap Note.event? =
      [beginning run step, ending run step result] := by
  have first : (stepNote run (running (.ofStep step))).event? = some (beginning run step) := rfl
  rw [List.filterMap_cons_some first, List.filterMap_append, sent.filterMap_event?,
    List.filterMap_cons_some (event?_stepNote terminal stepId name), List.filterMap_nil, List.nil_append]

/-- The notes that a run tells about a step hold the events of the step. -/
theorem Tells.emits {run : Run} {step : Step} {result : StepResult} {piece : List Note}
    (tells : Tells run step result piece) (stepId : result.stepId = step.id) (name : result.name = step.name) :
    Emits run step result (piece.filterMap Note.event?) := by
  cases tells with
  | skipped reason =>
    have told : (stepNote run (Engine.skipped (.ofStep step) reason)).event? =
        some (ending run step (Engine.skipped (.ofStep step) reason)) := event?_stepNote rfl rfl rfl
    rw [List.filterMap_cons_some told]
    exact .skipped rfl
  | executed status sent =>
    rw [filterMap_event?_between (StepStatus.isTerminal_iff.mpr (status.imp id .inl)) stepId name sent]
    exact .executed status
  | discarded canceled bare sent =>
    subst bare
    rw [filterMap_event?_between rfl stepId name sent]
    exact .discarded rfl canceled rfl

/-- A run that is carried out leaves the same notes and comes to the same end whoever observes it. -/
theorem carryOut_observed {σ : Type} {observe : σ → Note → σ} {world final : World σ} {result : Except RunError Run}
    (carried : carryOut options scenario start executor observe world = (some result, final)) :
    ∃ notes : List Note, final.seen = notes.foldl observe world.seen ∧ ∀ {τ : Type} (watch : τ → Note → τ) (seen : τ),
      carryOut options scenario start executor watch ⟨world.calls, world.clock, world.canceled, seen⟩ =
        (some result, ⟨final.calls, final.clock, final.canceled, notes.foldl watch seen⟩) := by
  obtain ⟨notes, runs, seen⟩ := exists_runs_of_play carried
  refine ⟨notes, seen, fun {τ} watch seen => ?_⟩
  have again : Runs executor (Engine.run options scenario (start.told world.canceled))
      (World.forget (⟨world.calls, world.clock, world.canceled, seen⟩ : World τ)) notes result final.forget := runs
  exact again.play_eq

/-- In a run that is carried out the steps emit their events in the order of the plan, and then the run emits that it is
done. A channel that nobody receives from before the end holds the first of these events, as many as fit. -/
theorem carryOut_emits {σ : Type} (options : RunOptions) (scenario : Scenario) (plan : Plan) (start : Start)
    (executor : Executor) (observe : σ → Note → σ) (world : World σ) (valid : scenario.validate = .ok plan) :
    (start.environment.check = .ok () → executor.Answers →
      ∃ run final, carryOut options scenario start executor observe world = (some (.ok run), final)) ∧
    ∀ run final, carryOut options scenario start executor observe world = (some (.ok run), final) →
      ∃ (notes : List Note) (pieces : List (List ProgressEvent)) (events : List ProgressEvent),
        final.seen = notes.foldl observe world.seen ∧ notes.filterMap Note.event? = events ∧
        events = pieces.flatten ++ [.done run.id run.scenarioName run.status run.canceled] ∧
        List.Forall₂ (fun index piece => ∃ step result, scenario.steps[index]? = some step ∧
          run.results[index]? = some result ∧ Emits run step result piece) plan.order pieces ∧
        ∀ capacity, ∃ last, carryOut options scenario start executor Channel.observe
            ⟨world.calls, world.clock, world.canceled, .ofCapacity capacity⟩ = (some (.ok run), last) ∧
          last.seen.queue = events.take (max capacity 1) ∧
          last.seen.queue.length = min (max capacity 1) events.length := by
  refine ⟨fun checked answers => exists_carryOut valid checked answers, fun run final carried => ?_⟩
  obtain ⟨notes, seen, watched⟩ := carryOut_observed carried
  -- Whoever keeps every note has the notes themselves, and those are told about step by step.
  obtain ⟨pieces, told, kept, -⟩ := carryOut_accounts valid (watched (fun seen note => note :: seen) [])
  have whole : notes = pieces.flatten ++ [Note.progress (.ofRun run)] := by
    simp only [List.foldl_flip_cons_eq_append', List.append_nil] at kept
    exact List.reverse_injective kept
  have named (index : Nat) (step : Step) (result : StepResult) (atStep : scenario.steps[index]? = some step)
      (atResult : run.results[index]? = some result) : result.stepId = step.id ∧ result.name = step.name := by
    obtain ⟨state, _, rfl, -, chain⟩ := carryOut_chain valid carried
    have nodup : ([] ++ plan.order).Nodup := (Scenario.sound_of_validate valid).nodup
    have tracked := chain.tracked (opening_tracked scenario (start.told world.canceled)) nodup
    have ids := congrArg (·[index]?) tracked.stepIds
    have names := congrArg (·[index]?) tracked.names
    have atState : state.run.results[index]? = some result := atResult
    simp only [List.getElem?_map, atStep, atState, Option.map_some, Option.some.injEq] at ids names
    exact ⟨ids, names⟩
  refine ⟨notes, pieces.map (List.filterMap Note.event?), _, seen, rfl, ?_, ?_, fun capacity => ?_⟩
  · rw [whole, List.filterMap_append, List.filterMap_flatten]
    rfl
  · rw [List.forall₂_map_right_iff]
    refine told.imp ?_
    rintro index piece ⟨step, result, atStep, atResult, tells⟩
    obtain ⟨stepId, name⟩ := named index step result atStep atResult
    exact ⟨step, result, atStep, atResult, tells.emits stepId name⟩
  · refine ⟨_, watched Channel.observe (.ofCapacity capacity), ?_⟩
    simp only [Channel.foldl_observe, Channel.publish_ofCapacity, List.length_take, and_self]

theorem twin_emits :
    twin.validate = .ok twinPlan ∧ plainStart.environment.check = .ok () ∧ lateCancel.Answers ∧
      ∃ run pieces last,
        List.Forall₂ (fun index piece => ∃ step result, twin.steps[index]? = some step ∧
          run.results[index]? = some result ∧ Emits run step result piece) [1, 0] pieces ∧
        carryOut {} twin plainStart lateCancel Channel.observe ⟨[], 0, false, .ofCapacity 3⟩ =
          (some (.ok run), last) ∧
        last.seen.queue =
          (pieces.flatten ++ [ProgressEvent.done run.id run.scenarioName run.status run.canceled]).take 3 ∧
        last.seen.queue.length = 3 ∧ run.canceled = true := by
  have valid : twin.validate = .ok twinPlan := by rfl
  have answers : lateCancel.Answers := fun _ _ => rfl
  obtain ⟨carries, emits⟩ := carryOut_emits {} twin twinPlan plainStart lateCancel (fun seen _ => seen) { seen := () }
    valid
  obtain ⟨run, final, carried⟩ := carries rfl answers
  obtain ⟨notes, pieces, events, -, -, rfl, told, delivers⟩ := emits run final carried
  obtain ⟨last, watched, queue, -⟩ := delivers 3
  have canceled : (carryOut {} twin plainStart lateCancel (fun seen _ => seen) { seen := () }).1.map
      (fun result => result.toOption.map Run.canceled) = some (some true) := by rfl
  have full : (carryOut {} twin plainStart lateCancel Channel.observe
      ⟨[], 0, false, .ofCapacity 3⟩).2.seen.queue.length = 3 := by rfl
  rw [carried] at canceled
  rw [watched] at full
  exact ⟨valid, rfl, answers, run, pieces, last, told, watched, queue, full, Option.some.inj (Option.some.inj canceled)⟩

end Runbook.Engine

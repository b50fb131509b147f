import Runbook.Proofs.Plan.Valid
import Runbook.Proofs.Run.Step

/-!
The course of a run: its steps in the order of the plan, each of which settles its own result and leaves the others
alone. What every step keeps holds of the whole run.
-/

namespace Runbook.Engine

open Interaction

variable {executor : Executor} {options : RunOptions} {environment : Environment} {draws : Template.Draws}
  {plan : Plan} {steps : List Step}

/-- The results stand for the steps; those of the steps done are settled, and the others are as at the start. -/
structure Tracked (steps : List Step) (done : List Nat) (state : State) : Prop where
  length : state.run.results.length = steps.length
  stepIds : state.run.results.map StepResult.stepId = steps.map Step.id
  names : state.run.results.map StepResult.name = steps.map Step.name
  pending : ∀ index, index ∉ done → ∀ step, steps[index]? = some step →
    state.run.results[index]? = some (StepResult.ofStep step)
  settled : ∀ index ∈ done, ∀ result, state.run.results[index]? = some result → result.status.isTerminal = true

/-- A step settles a result under its own identifier and name, and leaves the rest of the record alone. -/
structure Settles (state : State) (step : Step) (index : Nat) (result : StepResult) (after : State) : Prop where
  results : after.run.results = state.run.results.set index result
  stepId : result.stepId = (state.result step index).stepId
  name : result.name = (state.result step index).name
  terminal : result.status.isTerminal = true
  runId : after.run.id = state.run.id
  scenarioName : after.run.scenarioName = state.run.scenarioName
  canceled : state.run.canceled = true → after.run.canceled = true

theorem Takes.settles {step : Step} {index : Nat} {state after : State} {world final : World Unit} {notes : List Note}
    (takes : Takes executor options environment draws plan step index state world notes after final) :
    ∃ result, Settles state step index result after := by
  cases takes with
  | skip => exact ⟨_, rfl, rfl, rfl, rfl, rfl, rfl, fun canceled => by simp [canceled]⟩
  | keep _ executes _ =>
    refine ⟨_, rfl, executes.stepId, executes.name, ?_, rfl, rfl, id⟩
    exact StepStatus.isTerminal_iff.mpr (executes.status.imp id .inl)
  | discard => exact ⟨_, rfl, rfl, rfl, rfl, rfl, rfl, fun _ => rfl⟩

theorem Settles.getElem?_ne {state after : State} {step : Step} {index : Nat} {result : StepResult}
    (settles : Settles state step index result after) {other : Nat} (different : other ≠ index) :
    after.run.results[other]? = state.run.results[other]? := by
  rw [settles.results, List.getElem?_set_ne (Ne.symm different)]

namespace Tracked

variable {done : List Nat} {state after : State} {step : Step} {index : Nat}

theorem result_eq (tracked : Tracked steps done state) (new : index ∉ done) (atIndex : steps[index]? = some step) :
    state.result step index = StepResult.ofStep step := by
  rw [State.result, List.getD_eq_getElem?_getD, tracked.pending index new step atIndex, Option.getD_some]

theorem inside (tracked : Tracked steps done state) (atIndex : steps[index]? = some step) :
    index < state.run.results.length := by
  rw [tracked.length]
  exact (List.getElem?_eq_some_iff.mp atIndex).1

/-- A result that is settled stands at the place of its step. -/
theorem getElem?_self (tracked : Tracked steps done state) (atIndex : steps[index]? = some step)
    {result : StepResult} (settles : Settles state step index result after) :
    after.run.results[index]? = some result := by
  rw [settles.results, List.getElem?_set_self (tracked.inside atIndex)]

/-- A step keeps the record in order, and is then among the steps done. -/
theorem settle (tracked : Tracked steps done state) (new : index ∉ done) (atIndex : steps[index]? = some step)
    {result : StepResult} (settles : Settles state step index result after) :
    Tracked steps (done ++ [index]) after := by
  have fresh := tracked.result_eq new atIndex
  have unchanged {β : Type} (field : StepResult → β) (value : Step → β)
      (old : state.run.results.map field = steps.map value) (own : field result = value step) :
      after.run.results.map field = steps.map value := by
    rw [settles.results, List.map_set, old, own]
    apply List.ext_getElem?
    intro other
    by_cases same : other = index
    · subst same
      rw [List.getElem?_set_self (by simpa using (List.getElem?_eq_some_iff.mp atIndex).1), List.getElem?_map, atIndex]
      rfl
    · rw [List.getElem?_set_ne (Ne.symm same)]
  refine ⟨?_, ?_, ?_, ?_, ?_⟩
  · rw [settles.results, List.length_set, tracked.length]
  · exact unchanged StepResult.stepId Step.id tracked.stepIds (by rw [settles.stepId, fresh]; rfl)
  · exact unchanged StepResult.name Step.name tracked.names (by rw [settles.name, fresh]; rfl)
  · intro other later otherStep atOther
    obtain ⟨before, different⟩ := not_or.mp (List.mem_append.not.mp later)
    rw [settles.getElem?_ne (by simpa using different)]
    exact tracked.pending other before otherStep atOther
  · intro other member otherResult atOther
    by_cases same : other = index
    · subst same
      rw [tracked.getElem?_self atIndex settles, Option.some.injEq] at atOther
      exact atOther ▸ settles.terminal
    · rw [settles.getElem?_ne same] at atOther
      exact tracked.settled other ((List.mem_append.mp member).resolve_right (by simpa using same)) otherResult atOther

/-- Once all steps are done every result is terminal. -/
theorem terminal {order : List Nat} (tracked : Tracked steps order state)
    (complete : ∀ index < steps.length, index ∈ order) {result : StepResult} (member : result ∈ state.run.results) :
    result.status.isTerminal = true := by
  obtain ⟨index, atIndex⟩ := List.mem_iff_getElem?.mp member
  have inside := (List.getElem?_eq_some_iff.mp atIndex).1
  exact tracked.settled index (complete index (tracked.length ▸ inside)) result atIndex

end Tracked

/-- Some step of a run has a status. -/
def Shows (run : Run) (status : StepStatus) : Prop :=
  ∃ (index : Nat) (result : StepResult), run.results[index]? = some result ∧ result.status = status

/-- A status other than that of the start stays on record. -/
theorem Shows.settle {done : List Nat} {state after : State} {step : Step} {index : Nat} {result : StepResult}
    {status : StepStatus} (shown : Shows state.run status) (moved : status ≠ .pending)
    (tracked : Tracked steps done state) (new : index ∉ done) (atIndex : steps[index]? = some step)
    (settles : Settles state step index result after) : Shows after.run status := by
  obtain ⟨other, otherResult, atOther, rfl⟩ := shown
  refine ⟨other, otherResult, ?_, rfl⟩
  have different : other ≠ index := by
    rintro rfl
    rw [tracked.pending other new step atIndex, Option.some.injEq] at atOther
    exact moved (atOther ▸ rfl)
  rw [settles.getElem?_ne different, atOther]

/-- A step is to run when the run is neither canceled nor ended early, and all that it depends on passed. -/
theorem skipReason?_eq_none_iff {state : State} {index : Nat} :
    state.skipReason? plan index = none ↔ state.canceled = false ∧ state.aborted = false ∧
      ∀ source, plan.DependsOn source index → ∀ result, state.run.results[source]? = some result →
        result.status = .passed := by
  unfold State.skipReason? Plan.DependsOn Plan.Needs
  by_cases canceled : state.canceled = true
  · simp [canceled]
  · by_cases aborted : state.aborted = true
    · simp [canceled, aborted]
    · simp only [Bool.not_eq_true] at canceled aborted
      simp only [canceled, aborted, Bool.false_eq_true, if_false, Option.map_eq_none_iff, List.find?_eq_none,
        List.mem_filterMap, bne_iff_ne, ne_eq, Decidable.not_not, true_and, forall_exists_index, and_imp]
      exact ⟨fun all source member result atSource => all result source member atSource,
        fun all result source member atSource => all source member result atSource⟩

/-- What holds at the start and is kept by every step holds at the end of all steps. -/
theorem runSteps_invariant {order : List Nat} (nodup : order.Nodup) (bounded : ∀ index ∈ order, index < steps.length)
    (motive : List Nat → List Note → State → World Unit → Prop)
    (keeps : ∀ done index rest, order = done ++ index :: rest → index ∉ done → ∀ step, steps[index]? = some step →
      ∀ notes state world, Tracked steps done state → motive done notes state world → ∀ new after final,
        Takes executor options environment draws plan step index state world new after final →
          motive (done ++ [index]) (notes ++ new) after final)
    {rest done : List Nat} (split : order = done ++ rest) {notes new : List Note} {state after : State}
    {world final : World Unit} (tracked : Tracked steps done state) (start : motive done notes state world)
    (runs : Runs executor (runSteps options environment draws plan steps rest state) world new after final) :
    Tracked steps order after ∧ motive order (notes ++ new) after final := by
  induction rest generalizing done notes new state world with
  | nil =>
    cases runs
    rw [List.append_nil] at split
    subst split
    rw [List.append_nil]
    exact ⟨tracked, start⟩
  | cons index rest ih =>
    have member : index ∈ order := by simp [split]
    have fresh : index ∉ done := by
      rw [split] at nodup
      exact fun early => (List.nodup_append'.mp nodup).2.2 early List.mem_cons_self
    obtain ⟨step, atIndex⟩ : ∃ step, steps[index]? = some step :=
      ⟨_, List.getElem?_eq_getElem (bounded index member)⟩
    unfold runSteps at runs
    simp only [atIndex, bind_eq] at runs
    obtain ⟨between, first, second, middle, rfl, left, right⟩ := runs_bind_iff.mp runs
    have takes := runStep_runs (tracked.inside atIndex) left
    obtain ⟨result, settles⟩ := takes.settles
    rw [← List.append_assoc]
    exact ih (by simp [split]) (tracked.settle fresh atIndex settles)
      (keeps done index rest split fresh step atIndex notes state world tracked start first between middle takes) right

/-- The record of a run at its start. -/
def begun (scenario : Scenario) (start : Start) : Run :=
  { Run.ofScenario start.runId scenario start.environment.name with
    status := .running
    startedAt := some start.draws.now }

/-- The record of a run whose steps are all done. -/
def finished (start : Start) (state : State) : Run :=
  { state.run with
    status := finalStatus state.run
    finishedAt := some (start.draws.now.after state.elapsed) }

/-- The state of a run before its first step. -/
def opening (scenario : Scenario) (start : Start) : State :=
  { run := begun scenario start, scope := start.scope, canceled := start.canceled }

theorem opening_tracked (scenario : Scenario) (start : Start) :
    Tracked scenario.steps [] (opening scenario start) where
  length := by simp [opening, begun, Run.ofScenario]
  stepIds := by simp [opening, begun, Run.ofScenario, StepResult.ofStep]
  names := by simp [opening, begun, Run.ofScenario, StepResult.ofStep]
  pending index _ step atIndex := by simp [opening, begun, Run.ofScenario, atIndex]
  settled _ member := by cases member

variable {scenario : Scenario} {start : Start} {world final : World Unit} {notes : List Note}

/-- A run that is started takes its steps and then tells its end. -/
theorem run_runs (valid : scenario.validate = .ok plan) (checked : start.environment.check = .ok ())
    {result : Except RunError Run} (runs : Runs executor (run options scenario start) world notes result final) :
    ∃ state stepNotes, Runs executor
        (runSteps options start.environment start.draws plan scenario.steps plan.order (opening scenario start)) world
        stepNotes state final ∧
      result = .ok (finished start state) ∧
      notes = stepNotes ++ [.progress (ProgressEvent.ofRun (finished start state))] := by
  unfold run at runs
  simp only [valid, checked, bind_eq] at runs
  obtain ⟨state, first, second, middle, rfl, left, right⟩ := runs_bind_iff.mp runs
  cases right with
  | note right =>
    cases right
    exact ⟨state, first, left, rfl, rfl⟩

/-- The start of a run that is told whether it is canceled. -/
def Start.told (start : Start) (canceled : Bool) : Start := { start with canceled }

/-- A scenario carried out in a world; the run is told at its start whether the world is canceled. -/
def carryOut {σ : Type} (options : RunOptions) (scenario : Scenario) (start : Start) (executor : Executor)
    (observe : σ → Note → σ) (world : World σ) : Option (Except RunError Run) × World σ :=
  (run options scenario (start.told world.canceled)).play executor observe world

/-- With an executor that always answers, a valid scenario in a sound environment yields a run. -/
theorem exists_carryOut {σ : Type} {observe : σ → Note → σ} {world : World σ} (valid : scenario.validate = .ok plan)
    (checked : start.environment.check = .ok ()) (answers : executor.Answers) :
    ∃ run final, carryOut options scenario start executor observe world = (some (.ok run), final) := by
  have checkedToo : (start.told world.canceled).environment.check = .ok () := checked
  obtain ⟨result, final, played⟩ := exists_play answers (run options scenario (start.told world.canceled)) world
  obtain ⟨notes, runs, -⟩ := exists_runs_of_play played
  obtain ⟨state, _, _, rfl, _⟩ := run_runs valid checkedToo runs
  exact ⟨_, final, played⟩

/-- A run is made in a sound environment only. -/
theorem checked_of_carryOut {σ : Type} {observe : σ → Note → σ} {world final : World σ} {run : Run}
    (valid : scenario.validate = .ok plan)
    (carried : carryOut options scenario start executor observe world = (some (.ok run), final)) :
    start.environment.check = .ok () := by
  unfold carryOut Engine.run at carried
  cases checked : start.environment.check with
  | error error =>
    have checkedToo : (start.told world.canceled).environment.check = .error error := checked
    simp only [valid, checkedToo] at carried
    cases carried
  | ok _ => rfl

/-- What holds before the first step of a run and is kept by every step holds of the state that the run ends with. The
run is read off that state, and its observer is told the notes of the steps, then the end. -/
theorem carryOut_invariant {σ : Type} {observe : σ → Note → σ} {world final : World σ} {run : Run}
    (valid : scenario.validate = .ok plan) (motive : List Nat → List Note → State → World Unit → Prop)
    (opens : motive [] [] (opening scenario (start.told world.canceled)) world.forget)
    (keeps : ∀ done index rest, plan.order = done ++ index :: rest → index ∉ done →
      ∀ step, scenario.steps[index]? = some step → ∀ notes state world, Tracked scenario.steps done state →
        motive done notes state world → ∀ new after final,
          Takes executor options start.environment start.draws plan step index state world new after final →
            motive (done ++ [index]) (notes ++ new) after final)
    (carried : carryOut options scenario start executor observe world = (some (.ok run), final)) :
    ∃ state notes, run = finished start state ∧
      final.seen = (notes ++ [.progress (ProgressEvent.ofRun run)]).foldl observe world.seen ∧
      Tracked scenario.steps plan.order state ∧ motive plan.order notes state final.forget := by
  have checked : (start.told world.canceled).environment.check = .ok () := checked_of_carryOut valid carried
  obtain ⟨notes, runs, seen⟩ := exists_runs_of_play carried
  obtain ⟨state, stepNotes, stepRuns, ends, rfl⟩ := run_runs valid checked runs
  have sound := Scenario.sound_of_validate valid
  have kept := runSteps_invariant sound.nodup (fun _ member => sound.mem_order_iff.mp member) motive keeps rfl
    (opening_tracked scenario (start.told world.canceled)) opens stepRuns
  cases ends
  exact ⟨state, stepNotes, rfl, seen, kept⟩

end Runbook.Engine

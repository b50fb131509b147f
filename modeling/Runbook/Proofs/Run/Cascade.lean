import Runbook.Proofs.Run.Chain
import Runbook.Proofs.Run.Terminal

/-!
How a failure spreads. A step looks only at the steps that it depends on directly; yet in a run that is neither canceled
nor ended early it is skipped exactly when some step failed from which it can be reached.
-/

namespace Runbook.Engine

open Interaction Relation

variable {executor : Executor} {options : RunOptions} {environment : Environment} {draws : Template.Draws}
  {plan : Plan} {steps : List Step}

/-- A step depends directly on one that did not pass. -/
def Barred (plan : Plan) (run : Run) (index : Nat) : Prop :=
  ∃ (source : Nat) (other : StepResult), plan.DependsOn source index ∧ run.results[source]? = some other ∧
    other.status ≠ .passed

theorem barred_congr {run other : Run} {index : Nat}
    (same : ∀ source, plan.DependsOn source index → run.results[source]? = other.results[source]?) :
    Barred plan run index ↔ Barred plan other index := by
  constructor
  · rintro ⟨source, result, depends, atSource, unpassed⟩
    exact ⟨source, result, depends, (same source depends).symm.trans atSource, unpassed⟩
  · rintro ⟨source, result, depends, atSource, unpassed⟩
    exact ⟨source, result, depends, (same source depends).trans atSource, unpassed⟩

/-- In a run that goes on, a step is kept from running just by a step that it depends on. -/
theorem skipReason?_eq_none_iff_not_barred {state : State} {index : Nat} (calm : state.canceled = false)
    (unaborted : state.aborted = false) : state.skipReason? plan index = none ↔ ¬Barred plan state.run index := by
  rw [skipReason?_eq_none_iff]
  constructor
  · rintro ⟨-, -, passed⟩ ⟨source, result, depends, atSource, unpassed⟩
    exact unpassed (passed source depends result atSource)
  · intro free
    refine ⟨calm, unaborted, fun source depends result atSource => ?_⟩
    by_contra unpassed
    exact free ⟨source, result, depends, atSource, unpassed⟩

/-- The run goes on, and among the steps done the barred ones are skipped. -/
structure Cascading (plan : Plan) (done : List Nat) (state : State) (world : World Unit) : Prop where
  synced : Synced done state world
  calm : world.canceled = false
  unaborted : state.aborted = false
  skipped_iff : ∀ index ∈ done, ∀ result, state.run.results[index]? = some result →
    (result.status = .skipped ↔ Barred plan state.run index)

/-- The step that is taken is skipped just when it is barred, and the run goes on. -/
theorem Takes.cascade {state after : State} {step : Step} {index : Nat} {world final : World Unit} {notes : List Note}
    (takes : Takes executor options environment draws plan step index state world notes after final)
    (steady : executor.Steady)
    (goesOn : options.abortOnFailure = false) (token : state.canceled = world.canceled) (calm : world.canceled = false)
    (unaborted : state.aborted = false) (inside : index < state.run.results.length) :
    final.canceled = false ∧ after.aborted = false ∧ ∃ result, after.run.results[index]? = some result ∧
      (result.status = .skipped ↔ Barred plan state.run index) := by
  have clear_iff : state.skipReason? plan index = none ↔ ¬Barred plan state.run index :=
    skipReason?_eq_none_iff_not_barred (token.trans calm) unaborted
  have own (result : StepResult) : (state.run.results.set index result)[index]? = some result :=
    List.getElem?_set_self inside
  cases takes with
  | skip why =>
    have barred : Barred plan state.run index := by
      by_contra free
      rw [clear_iff.mpr free] at why
      cases why
    exact ⟨calm, unaborted, _, own _, iff_of_true rfl barred⟩
  | keep clear executes kept =>
    refine ⟨(executes.steady steady).trans calm, ?_, _, own _, iff_of_false executes.ne_skipped (clear_iff.mp clear)⟩
    simp only [goesOn, unaborted, ite_self]
  | discard clear executes discarded =>
    have canceled := executes.canceled_eq token
    rw [discarded, executes.steady steady, calm] at canceled
    cases canceled

theorem Cascading.takes {done rest : List Nat} {state after : State} {step : Step} {index : Nat}
    {world final : World Unit} {notes : List Note} (cascading : Cascading plan done state world)
    (steady : executor.Steady)
    (goesOn : options.abortOnFailure = false) (sound : plan.Sound steps.length)
    (split : plan.order = done ++ index :: rest) (new : index ∉ done) (atIndex : steps[index]? = some step)
    (tracked : Tracked steps done state)
    (takes : Takes executor options environment draws plan step index state world notes after final) :
    Cascading plan (done ++ [index]) after final := by
  obtain ⟨calm, unaborted, result, atResult, status⟩ := takes.cascade steady goesOn cascading.synced.token
    cascading.calm cascading.unaborted (tracked.inside atIndex)
  obtain ⟨settled, settles⟩ := takes.settles
  -- What a step in the front depends on is done already, and its result stays.
  have stable (other : Nat) (member : other ∈ done ++ [index]) :
      Barred plan after.run other ↔ Barred plan state.run other := by
    refine barred_congr fun source depends => settles.getElem?_ne fun same => new ?_
    rw [← same]
    rcases List.mem_append.mp member with old | own
    · exact sound.mem_front split old depends
    · rw [List.mem_singleton.mp own] at depends
      exact sound.earlier done index rest split source depends
  refine ⟨cascading.synced.takes takes, calm, unaborted, fun other member otherResult atOther => ?_⟩
  rw [stable other member]
  by_cases same : other = index
  · subst same
    obtain rfl : result = otherResult := Option.some.inj (atResult.symm.trans atOther)
    exact status
  · have old := (List.mem_append.mp member).resolve_right (by simpa using same)
    rw [settles.getElem?_ne same] at atOther
    exact cascading.skipped_iff other old otherResult atOther

section

variable {run : Run}

/-- A step can be reached from one that failed. -/
def BehindFailure (plan : Plan) (run : Run) (index : Nat) : Prop :=
  ∃ (source : Nat) (other : StepResult), TransGen plan.DependsOn source index ∧ run.results[source]? = some other ∧
    other.status = .failed

/-- A barred step can be reached from a failed one, if the barred steps are those that are skipped. -/
theorem Barred.behindFailure (sound : plan.Sound steps.length)
    (terminal : ∀ result ∈ run.results, result.status.isTerminal = true)
    (skipped_iff : ∀ index result, run.results[index]? = some result →
      (result.status = .skipped ↔ Barred plan run index)) {index : Nat} (inside : index < steps.length)
    (barred : Barred plan run index) : BehindFailure plan run index := by
  revert barred
  -- The induction is on the order of the plan: what bars a step failed itself or was barred earlier.
  refine sound.induction (motive := fun index => Barred plan run index → BehindFailure plan run index) ?_ inside
  rintro index - earlier ⟨source, other, depends, atSource, unpassed⟩
  rcases StepStatus.isTerminal_iff.mp (terminal other (List.mem_of_getElem? atSource)) with passed | failed | skipped
  · exact absurd passed unpassed
  · exact ⟨source, other, .single depends, atSource, failed⟩
  · obtain ⟨origin, result, path, atOrigin, failed⟩ :=
      earlier source depends ((skipped_iff source other atSource).mp skipped)
    exact ⟨origin, result, path.tail depends, atOrigin, failed⟩

/-- A step that can be reached from a failed one is barred, if the barred steps are skipped. -/
theorem BehindFailure.barred (sound : plan.Sound steps.length) (length : run.results.length = steps.length)
    (skipped_iff : ∀ index result, run.results[index]? = some result →
      (result.status = .skipped ↔ Barred plan run index)) {index : Nat} (inside : index < steps.length)
    (behind : BehindFailure plan run index) : Barred plan run index := by
  obtain ⟨source, other, path, atSource, failed⟩ := behind
  induction path with
  | single depends => exact ⟨source, other, depends, atSource, by simp [failed]⟩
  | @tail middle index _ depends ih =>
    have before := sound.source_lt inside depends
    have atMiddle := List.getElem?_eq_getElem (length ▸ before : middle < run.results.length)
    have skipped := (skipped_iff middle _ atMiddle).mpr (ih before)
    exact ⟨middle, _, depends, atMiddle, by simp [skipped]⟩

end

/-- How a run reads in which failures spread along the dependencies of its plan. -/
structure Cascaded (scenario : Scenario) (plan : Plan) (run : Run) : Prop where
  order_perm : plan.order.Perm (List.range scenario.steps.length)
  stepIds : run.results.map StepResult.stepId = scenario.steps.map Step.id
  skipped_iff : ∀ index result, run.results[index]? = some result → (result.status = .skipped ↔
    ∃ (source : Nat) (other : StepResult), scenario.Reaches plan source index ∧ run.results[source]? = some other ∧
      other.status = .failed)
  executed : ∀ result ∈ run.results, result.status ≠ .skipped → result.status = .passed ∨ result.status = .failed
  blank : ∀ result ∈ run.results, result.status = .skipped →
    result.request = none ∧ result.response = none ∧ result.captured = []

/-- A run that goes on to its end has cascaded. -/
theorem Cascading.cascaded {scenario : Scenario} {state : State} {world : World Unit} {start : Start}
    {pieces : List (List Note)} (cascading : Cascading plan plan.order state world)
    (valid : scenario.validate = .ok plan) (tracked : Tracked scenario.steps plan.order state)
    (told : TellsSteps scenario.steps (finished start state) plan.order pieces) :
    Cascaded scenario plan (finished start state) := by
  have sound := Scenario.sound_of_validate valid
  have complete (index : Nat) (inside : index < scenario.steps.length) : index ∈ plan.order :=
    sound.mem_order_iff.mpr inside
  have inside {index : Nat} {result : StepResult} (atIndex : state.run.results[index]? = some result) :
      index < scenario.steps.length := tracked.length ▸ (List.getElem?_eq_some_iff.mp atIndex).1
  have terminal (result : StepResult) (member : result ∈ state.run.results) : result.status.isTerminal = true :=
    tracked.terminal complete member
  have skipped_iff (index : Nat) (result : StepResult) (atIndex : state.run.results[index]? = some result) :
      result.status = .skipped ↔ Barred plan state.run index :=
    cascading.skipped_iff index (complete index (inside atIndex)) result atIndex
  refine ⟨sound.order_perm, tracked.stepIds, ?_, ?_, ?_⟩
  · intro index result atIndex
    rw [skipped_iff index result atIndex]
    simp only [← Scenario.transGen_dependsOn_iff valid]
    exact ⟨fun barred => barred.behindFailure sound terminal skipped_iff (inside atIndex),
      fun behind => BehindFailure.barred sound tracked.length skipped_iff (inside atIndex) behind⟩
  · intro result member unskipped
    rcases StepStatus.isTerminal_iff.mp (terminal result member) with passed | failed | skipped
    · exact .inl passed
    · exact .inr failed
    · exact absurd skipped unskipped
  · intro result member status
    obtain ⟨index, atIndex⟩ := List.mem_iff_getElem?.mp member
    obtain ⟨step, piece, tells⟩ := told.of_mem (complete index (inside atIndex)) atIndex
    obtain ⟨reason, rfl⟩ := tells.blank status
    exact ⟨rfl, rfl, rfl⟩

/-- In a run that is never canceled and does not abort, failures spread exactly along the dependencies: the steps that
can be reached from a failed one are skipped, without any request, and all others are executed, in the order of the
plan. -/
theorem carryOut_cascades {σ : Type} (options : RunOptions) (scenario : Scenario) (plan : Plan) (start : Start)
    (executor : Executor) (observe : σ → Note → σ) (world : World σ) (valid : scenario.validate = .ok plan)
    (goesOn : options.abortOnFailure = false) (calm : world.canceled = false)
    (steady : executor.Steady) :
    (start.environment.check = .ok () → executor.Answers →
      ∃ run final, carryOut options scenario start executor observe world = (some (.ok run), final)) ∧
    ∀ run final, carryOut options scenario start executor observe world = (some (.ok run), final) →
      Cascaded scenario plan run ∧ run.canceled = false ∧ ∃ pieces, TellsSteps scenario.steps run plan.order pieces ∧
        List.Forall₂ (fun index piece => ∀ result, run.results[index]? = some result → result.status = .skipped →
          piece.filterMap Note.request? = []) plan.order pieces ∧
        final.seen = (pieces.flatten ++ [Note.progress (.ofRun run)]).foldl observe world.seen ∧
        final.requests = world.requests ++ pieces.flatten.filterMap Note.request? := by
  refine ⟨fun checked answers => exists_carryOut valid checked answers, fun run final carried => ?_⟩
  have sound := Scenario.sound_of_validate valid
  obtain ⟨pieces, told, seen, requests⟩ := carryOut_accounts valid carried
  obtain ⟨state, -, rfl, -, tracked, cascading⟩ := carryOut_invariant valid
    (fun done _ state now => Cascading plan done state now)
    ⟨opening_synced scenario start world, calm, rfl, by simp⟩
    (fun done index rest split new step atIndex notes state now tracked cascading more after last takes =>
      cascading.takes steady goesOn sound split new atIndex tracked takes)
    carried
  have quiet : state.run.canceled = false :=
    Bool.eq_false_iff.mpr fun canceled => by simpa [cascading.calm] using cascading.synced.only canceled
  refine ⟨cascading.cascaded valid tracked told, quiet, pieces, told, told.imp ?_, seen, requests⟩
  rintro index piece ⟨step, own, -, atOwn, tells⟩ result atIndex status
  obtain rfl : own = result := Option.some.inj (atOwn.symm.trans atIndex)
  exact tells.no_request quiet status

/-- A server that answers every request except the one of the third step. -/
def refusesThird : Executor := fun _ request =>
  some { outcome := if request.url = "http://host/c" then .error { cause := "refused" } else .ok { status := 200 } }

theorem crossed_cascades :
    Plan.crossed.validate = .ok Plan.crossedPlan ∧ refusesThird.Steady ∧
      ∃ run final, carryOut {} Plan.crossed plainStart refusesThird (fun seen _ => seen) { seen := () } =
          (some (.ok run), final) ∧
        Cascaded Plan.crossed Plan.crossedPlan run ∧
        run.results.map StepResult.status = [.passed, .passed, .failed, .skipped] := by
  have valid : Plan.crossed.validate = .ok Plan.crossedPlan := by rfl
  have steady : refusesThird.Steady := by
    intro earlier request served answer
    cases answer
    rfl
  have answers : refusesThird.Answers := fun _ _ => rfl
  obtain ⟨carries, cascades⟩ := carryOut_cascades {} Plan.crossed Plan.crossedPlan plainStart refusesThird
    (fun seen _ => seen) { seen := () } valid rfl rfl steady
  obtain ⟨run, final, carried⟩ := carries rfl answers
  obtain ⟨cascaded, -⟩ := cascades run final carried
  have statuses : (carryOut {} Plan.crossed plainStart refusesThird (fun seen _ => seen) { seen := () }).1.map
      (fun result => result.toOption.map fun run => run.results.map StepResult.status) =
        some (some [.passed, .passed, .failed, .skipped]) := by rfl
  rw [carried] at statuses
  exact ⟨valid, steady, run, final, carried, cascaded, Option.some.inj (Option.some.inj statuses)⟩

end Runbook.Engine

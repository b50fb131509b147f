import Runbook.Proofs.Run.Course

/-!
How a run ends: every step has a result that stays, and the run passed exactly when all its steps did. A step is skipped
only when the run is canceled or another step failed, so the count of failures and the flag tell everything.
-/

namespace Runbook.Engine

open Interaction

variable {executor : Executor} {options : RunOptions} {environment : Environment} {draws : Template.Draws}
  {plan : Plan} {steps : List Step}

/-- The run knows of a cancellation what the world does, from its first step on. -/
structure Synced (done : List Nat) (state : State) (world : World Unit) : Prop where
  token : state.canceled = world.canceled
  only : state.run.canceled = true → world.canceled = true
  told : done ≠ [] → state.run.canceled = world.canceled

theorem opening_synced {σ : Type} (scenario : Scenario) (start : Start) (world : World σ) :
    Synced [] (opening scenario (start.told world.canceled)) world.forget where
  token := rfl
  only canceled := by cases canceled
  told started := absurd rfl started

theorem Synced.takes {done : List Nat} {state after : State} {step : Step} {index : Nat} {world final : World Unit}
    {notes : List Note} (synced : Synced done state world)
    (takes : Takes executor options environment draws plan step index state world notes after final) :
    Synced (done ++ [index]) after final := by
  have clearRun (calm : state.canceled = false) : state.run.canceled = false := by
    rw [synced.token] at calm
    simpa [calm] using synced.only
  cases takes with
  | skip =>
    have flag : (state.run.canceled || state.canceled) = world.canceled := by
      rw [synced.token]
      cases canceled : state.run.canceled with
      | false => rfl
      | true => rw [synced.only canceled]; rfl
    exact ⟨synced.token, fun canceled => flag.symm.trans canceled, fun _ => flag⟩
  | keep clear executes kept =>
    have calm := (skipReason?_eq_none_iff.mp clear).1
    have quiet : world.canceled = false := synced.token.symm.trans calm
    have end_eq := executes.canceled_eq synced.token
    rw [kept] at end_eq
    exact ⟨end_eq, fun canceled => by simp [clearRun calm] at canceled, fun _ => (clearRun calm).trans end_eq⟩
  | discard clear executes discarded =>
    have end_eq := executes.canceled_eq synced.token
    rw [discarded] at end_eq
    exact ⟨end_eq, fun _ => end_eq.symm, fun _ => end_eq⟩

/-- A skipped step, and an early end of the run, have their cause on record; a canceled run has a skipped step. -/
structure Explained (run : Run) (aborted : Bool) : Prop where
  skipped : Shows run .skipped → run.canceled = true ∨ Shows run .failed
  aborted : aborted = true → Shows run .failed
  canceled : run.canceled = true → Shows run .skipped

/-- A step that is not to run has a cause: the run is canceled, or a step failed. -/
theorem Explained.of_skipReason? {done rest : List Nat} {index : Nat} {state : State} {reason : String}
    (explained : Explained state.run state.aborted) (sound : plan.Sound steps.length)
    (split : plan.order = done ++ index :: rest) (tracked : Tracked steps done state)
    (why : state.skipReason? plan index = some reason) :
    state.canceled = true ∨ state.run.canceled = true ∨ Shows state.run .failed := by
  by_contra none
  simp only [not_or, Bool.not_eq_true] at none
  obtain ⟨calm, calmRun, unfailed⟩ := none
  have unskipped : ¬Shows state.run .skipped := fun skipped => by
    rcases explained.skipped skipped with canceled | failed
    · simp [calmRun] at canceled
    · exact unfailed failed
  have noCause : state.skipReason? plan index = none := by
    refine skipReason?_eq_none_iff.mpr ⟨calm, ?_, ?_⟩
    · exact Bool.eq_false_iff.mpr fun aborted => unfailed (explained.aborted aborted)
    · intro source depends result atSource
      have terminal := tracked.settled source (sound.earlier done index rest split source depends) result atSource
      rcases StepStatus.isTerminal_iff.mp terminal with passed | failed | skipped
      · exact passed
      · exact absurd ⟨source, result, atSource, failed⟩ unfailed
      · exact absurd ⟨source, result, atSource, skipped⟩ unskipped
  rw [why] at noCause
  cases noCause

/-- A status that shows after a step is that of the step, or showed before. -/
theorem Settles.shows_cases {state after : State} {step : Step} {index : Nat} {result : StepResult}
    {status : StepStatus} (settles : Settles state step index result after) (shown : Shows after.run status) :
    result.status = status ∨ Shows state.run status := by
  obtain ⟨other, otherResult, atOther, rfl⟩ := shown
  rw [settles.results, List.getElem?_set] at atOther
  split at atOther
  · split at atOther
    · exact .inl (by rw [Option.some.inj atOther])
    · cases atOther
  · exact .inr ⟨other, otherResult, atOther, rfl⟩

/-- At the start nothing is to be explained. -/
theorem opening_explained (scenario : Scenario) (start : Start) :
    Explained (opening scenario start).run (opening scenario start).aborted where
  skipped := by
    rintro ⟨index, result, atIndex, status⟩
    have inside := (List.getElem?_eq_some_iff.mp atIndex).1
    rw [(opening_tracked scenario start).length] at inside
    rw [(opening_tracked scenario start).pending index List.not_mem_nil _ (List.getElem?_eq_getElem inside),
      Option.some.injEq] at atIndex
    subst atIndex
    cases status
  aborted aborted := by cases aborted
  canceled canceled := by cases canceled

/-- Every step leaves the record explained. -/
theorem Explained.takes {done rest : List Nat} {state after : State} {step : Step} {index : Nat}
    {world final : World Unit} {notes : List Note} (explained : Explained state.run state.aborted)
    (sound : plan.Sound steps.length) (split : plan.order = done ++ index :: rest) (new : index ∉ done)
    (atIndex : steps[index]? = some step) (tracked : Tracked steps done state)
    (takes : Takes executor options environment draws plan step index state world notes after final) :
    Explained after.run after.aborted := by
  obtain ⟨result, settles⟩ := takes.settles
  have own := tracked.getElem?_self atIndex settles
  have keepFailed (failed : Shows state.run .failed) : Shows after.run .failed :=
    failed.settle (by decide) tracked new atIndex settles
  have keepSkipped (skipped : Shows state.run .skipped) : Shows after.run .skipped :=
    skipped.settle (by decide) tracked new atIndex settles
  -- The causes of earlier skips stay; what is left is the result of this step and an early end.
  have now (cause : result.status = .skipped → after.run.canceled = true ∨ Shows after.run .failed)
      (shown : Shows after.run .skipped) : after.run.canceled = true ∨ Shows after.run .failed := by
    rcases settles.shows_cases shown with skipped | old
    · exact cause skipped
    · exact (explained.skipped old).imp settles.canceled keepFailed
  cases takes with
  | skip why =>
    refine ⟨now fun _ => ?_, fun aborted => keepFailed (explained.aborted aborted), fun _ => ?_⟩
    · rcases explained.of_skipReason? sound split tracked why with token | flag | failed
      · exact .inl (by simp [token])
      · exact .inl (settles.canceled flag)
      · exact .inr (keepFailed failed)
    · exact ⟨index, _, List.getElem?_set_self (tracked.inside atIndex), rfl⟩
  | @keep _ executed _ clear executes kept =>
    have same : executed.result = result := by
      simpa only [List.getElem?_set_self (tracked.inside atIndex), Option.some.injEq] using own
    subst same
    refine ⟨now fun skipped => absurd skipped executes.ne_skipped, fun aborted => ?_,
      fun canceled => keepSkipped (explained.canceled canceled)⟩
    by_cases failed : executed.result.status = .failed
    · exact ⟨index, executed.result, own, failed⟩
    · simp only [failed, if_false] at aborted
      exact keepFailed (explained.aborted aborted)
  | discard =>
    refine ⟨now fun _ => .inl rfl, fun aborted => keepFailed (explained.aborted aborted), fun _ => ?_⟩
    exact ⟨index, _, List.getElem?_set_self (tracked.inside atIndex), rfl⟩

/-- How the record of a run over some steps reads once the run is over. -/
structure Concluded (steps : List Step) (run : Run) : Prop where
  stepIds : run.results.map StepResult.stepId = steps.map Step.id
  names : run.results.map StepResult.name = steps.map Step.name
  terminal : ∀ result ∈ run.results, result.status ≠ .pending ∧ result.status ≠ .running
  status : run.status = if ∀ result ∈ run.results, result.status = .passed then .passed else .failed
  passed_iff : run.status = .passed ↔ (∀ result ∈ run.results, result.status ≠ .failed) ∧ run.canceled = false
  unskipped : run.status = .passed → ∀ result ∈ run.results, result.status ≠ .skipped
  counts : run.count .passed + run.count .failed + run.count .skipped = steps.length

/-- Terminal results are passed, failed or skipped. -/
theorem countP_terminal {results : List StepResult} (terminal : ∀ result ∈ results, result.status.isTerminal = true) :
    results.countP (·.status == .passed) + results.countP (·.status == .failed) +
      results.countP (·.status == .skipped) = results.length := by
  induction results with
  | nil => rfl
  | cons result rest ih =>
    have shorter := ih fun other member => terminal other (List.mem_cons_of_mem _ member)
    rcases StepStatus.isTerminal_iff.mp (terminal result List.mem_cons_self) with status | status | status
    all_goals
      simp [status]
      omega

theorem shows_iff {run : Run} {status : StepStatus} :
    Shows run status ↔ ∃ result ∈ run.results, result.status = status := by
  simp only [Shows, List.mem_iff_getElem?]
  exact ⟨fun ⟨index, result, atIndex, same⟩ => ⟨result, ⟨index, atIndex⟩, same⟩,
    fun ⟨result, ⟨index, atIndex⟩, same⟩ => ⟨index, result, atIndex, same⟩⟩

theorem finalStatus_eq_passed_iff (run : Run) :
    finalStatus run = .passed ↔ run.canceled = false ∧ ¬Shows run .failed := by
  rw [shows_iff]
  unfold finalStatus Run.count
  split
  · next failed =>
    simp only [Bool.or_eq_true, decide_eq_true_eq, List.countP_pos_iff, beq_iff_eq] at failed
    simp only [reduceCtorEq, false_iff, not_and, Classical.not_not]
    exact fun calm => failed.resolve_left (by simp [calm])
  · next passed =>
    simp only [Bool.or_eq_true, decide_eq_true_eq, List.countP_pos_iff, beq_iff_eq, not_or, Bool.not_eq_true] at passed
    simpa using passed

/-- A record that is complete and explained is concluded by the final status. -/
theorem Explained.concluded {state : State} {order : List Nat} {start : Start}
    (explained : Explained state.run state.aborted) (tracked : Tracked steps order state)
    (complete : ∀ index < steps.length, index ∈ order) : Concluded steps (finished start state) := by
  have terminal (result : StepResult) (member : result ∈ state.run.results) : result.status.isTerminal = true :=
    tracked.terminal complete member
  have unfailed_iff : (∀ result ∈ state.run.results, result.status ≠ .failed) ↔ ¬Shows state.run .failed := by
    simp [shows_iff]
  have passed_iff := finalStatus_eq_passed_iff state.run
  have unskipped (passed : finalStatus state.run = .passed) : ¬Shows state.run .skipped := fun skipped => by
    obtain ⟨calm, unfailed⟩ := passed_iff.mp passed
    rcases explained.skipped skipped with canceled | failed
    · simp [calm] at canceled
    · exact unfailed failed
  have all_iff : finalStatus state.run = .passed ↔ ∀ result ∈ state.run.results, result.status = .passed := by
    constructor
    · intro passed result member
      rcases StepStatus.isTerminal_iff.mp (terminal result member) with status | status | status
      · exact status
      · exact absurd (shows_iff.mpr ⟨result, member, status⟩) (passed_iff.mp passed).2
      · exact absurd (shows_iff.mpr ⟨result, member, status⟩) (unskipped passed)
    · intro all
      have never (status : StepStatus) (other : status ≠ .passed) : ¬Shows state.run status := fun shown => by
        obtain ⟨result, member, same⟩ := shows_iff.mp shown
        exact other (same.symm.trans (all result member))
      refine passed_iff.mpr ⟨Bool.eq_false_iff.mpr fun canceled => ?_, never .failed (by decide)⟩
      exact never .skipped (by decide) (explained.canceled canceled)
  refine ⟨tracked.stepIds, tracked.names, ?_, ?_, ?_, ?_, ?_⟩
  · intro result member
    rcases StepStatus.isTerminal_iff.mp (terminal result member) with status | status | status
    all_goals simp [status]
  · show finalStatus state.run = _
    split
    · next all => exact all_iff.mpr all
    · next some =>
      have unpassed := all_iff.not.mpr some
      unfold finalStatus at unpassed ⊢
      split
      · rfl
      · next passed => simp [passed] at unpassed
  · show finalStatus state.run = .passed ↔ _ ∧ state.run.canceled = false
    rw [passed_iff, And.comm]
    exact and_congr_left' unfailed_iff.symm
  · intro passed result member skipped
    exact unskipped passed (shows_iff.mpr ⟨result, member, skipped⟩)
  · exact (countP_terminal terminal).trans tracked.length

/-- A valid scenario in a sound environment is carried out to its end, if the executor always answers. The run is then
concluded, and it is canceled just when its world is, whenever that came about. -/
theorem carryOut_concluded {σ : Type} (options : RunOptions) (scenario : Scenario) (plan : Plan) (start : Start)
    (executor : Executor) (observe : σ → Note → σ) (world : World σ) (valid : scenario.validate = .ok plan) :
    (start.environment.check = .ok () → executor.Answers →
      ∃ run final, carryOut options scenario start executor observe world = (some (.ok run), final)) ∧
    ∀ run final, carryOut options scenario start executor observe world = (some (.ok run), final) →
      Concluded scenario.steps run ∧ run.canceled = final.canceled := by
  refine ⟨fun checked answers => exists_carryOut valid checked answers, fun run final carried => ?_⟩
  have sound := Scenario.sound_of_validate valid
  obtain ⟨state, notes, rfl, -, tracked, synced, explained⟩ := carryOut_invariant valid
    (fun done _ state world => Synced done state world ∧ Explained state.run state.aborted)
    ⟨opening_synced scenario start world, opening_explained scenario _⟩
    (fun done index rest split new step atIndex notes state world tracked kept more after final takes =>
      ⟨kept.1.takes takes, kept.2.takes sound split new atIndex tracked takes⟩)
    carried
  refine ⟨explained.concluded tracked fun index inside => sound.mem_order_iff.mpr inside, synced.told ?_⟩
  intro empty
  have steps := (Scenario.of_validate valid).1
  have count := sound.order_perm.length_eq
  rw [empty, List.length_range] at count
  exact steps (List.length_eq_zero_iff.mp count.symm)

/-- Two steps that need nothing of each other. -/
def twin : Scenario :=
  { id := "twin", name := "twin", flow := .graph [Plan.plainStep "late" 2, Plan.plainStep "early" 1] [] }

/-- The plan of the two steps. -/
def twinPlan : Plan := ⟨[1, 0], [[], []], [[], []]⟩

/-- A start without a base and without variables. -/
def plainStart : Start := { environment := { name := "local" }, scope := Scope.ofBindings [], runId := "run" }

/-- A server that answers every request; the run is canceled while the second one is in flight. -/
def lateCancel : Executor := fun earlier _ => some { outcome := .ok { status := 200 }, cancels := !earlier.isEmpty }

theorem twin_concluded :
    twin.validate = .ok twinPlan ∧ plainStart.environment.check = .ok () ∧
      lateCancel.Answers ∧
      ∃ run final, carryOut {} twin plainStart lateCancel (fun seen _ => seen) { seen := () } =
          (some (.ok run), final) ∧
        Concluded twin.steps run ∧ run.canceled = true := by
  have valid : twin.validate = .ok twinPlan := by rfl
  have answers : lateCancel.Answers := fun _ _ => rfl
  obtain ⟨carries, concludes⟩ := carryOut_concluded {} twin twinPlan plainStart lateCancel (fun seen _ => seen)
    { seen := () } valid
  obtain ⟨run, final, carried⟩ := carries rfl answers
  obtain ⟨concluded, canceled⟩ := concludes run final carried
  have late : (carryOut {} twin plainStart lateCancel (fun seen _ => seen) { seen := () }).2.canceled = true := by rfl
  rw [carried] at late
  exact ⟨valid, rfl, answers, run, final, carried, concluded, canceled.trans late⟩

end Runbook.Engine

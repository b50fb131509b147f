import Runbook.Proofs.Run.Cancellation
import Runbook.Proofs.Run.Cascade

/-!
A run that ends early after its first failure, beside the run that goes on. Both take the same way up to and including
the first step that fails; behind it the one run skips every step and sends no request, whatever the other one does.
-/

namespace Runbook

/-- The options with an early end after the first failure, or without. -/
def RunOptions.aborting (options : RunOptions) (early : Bool) : RunOptions := { options with abortOnFailure := early }

/-- The step at an index failed. -/
def Run.Fails (run : Run) (index : Nat) : Prop := run.results[index]?.map StepResult.status = some .failed

instance (run : Run) (index : Nat) : Decidable (run.Fails index) := inferInstanceAs (Decidable (_ = _))

theorem Run.Fails.of_getElem? {run : Run} {index : Nat} {result : StepResult} (failed : run.Fails index)
    (atIndex : run.results[index]? = some result) : result.status = .failed := by
  rw [Run.Fails, atIndex] at failed
  exact Option.some.inj failed

/-- Either no step of an order failed, or there is a first one that did. -/
theorem Run.first_fails (run : Run) (order : List Nat) :
    (∀ index ∈ order, ¬run.Fails index) ∨
      ∃ front index back, order = front ++ index :: back ∧ (∀ other ∈ front, ¬run.Fails other) ∧ run.Fails index := by
  cases found : order.find? fun index => decide (run.Fails index) with
  | none =>
    refine .inl fun index member => ?_
    simpa using List.find?_eq_none.mp found index member
  | some index =>
    obtain ⟨failed, front, back, split, unfailed⟩ := List.find?_eq_some_iff_append.mp found
    have calm : ∀ other ∈ front, ¬run.Fails other := fun other member => by simpa using unfailed other member
    exact .inr ⟨front, index, back, split, calm, by simpa using failed⟩

namespace Engine

open Interaction

variable {executor : Executor} {options : RunOptions} {environment : Environment} {draws : Template.Draws}
  {plan : Plan} {steps : List Step}

/-- A step is executed the same way whether a failure ends the run or not. -/
theorem Executes.aborting {step : Step} {pending : StepResult} {scope : Scope} {canceled : Bool}
    {world final : World Unit} {notes : List Note} {executed : Executed}
    (executes : Executes executor options environment draws step pending scope canceled world notes executed final)
    (early : Bool) :
    Executes executor (options.aborting early) environment draws step pending scope canceled world notes executed
      final := by
  cases executes with
  | unsendable fault => exact .unsendable fault
  | answered formed sends outcome => exact .answered formed sends outcome
  | unanswered formed sends outcome => exact .unanswered formed sends outcome

section

variable {step : Step} {index : Nat} {state after : State} {world final : World Unit} {notes : List Note}

/-- A step that does not fail is taken the same way whether a failure ends the run or not. -/
theorem Takes.aborting
    (takes : Takes executor options environment draws plan step index state world notes after final)
    (inside : index < state.run.results.length) (unfailed : ¬after.run.Fails index) (early : Bool) :
    Takes executor (options.aborting early) environment draws plan step index state world notes after final := by
  cases takes with
  | skip why => exact .skip why
  | @keep _ executed _ clear executes kept =>
    have other : executed.result.status ≠ .failed := fun failed => unfailed (by
      rw [Run.Fails, List.getElem?_set_self inside, Option.map_some, failed])
    have again := Takes.keep clear (executes.aborting early) kept
    rw [if_neg other] at again ⊢
    exact again
  | discard clear executes discarded => exact .discard clear (executes.aborting early) discarded

/-- A step that fails is taken the same way whether a failure ends the run or not, except that the run takes notice. -/
theorem Takes.aborting_of_fails
    (takes : Takes executor options environment draws plan step index state world notes after final)
    (inside : index < state.run.results.length) (failed : after.run.Fails index) (early : Bool) :
    after.canceled = false ∧ Takes executor (options.aborting early) environment draws plan step index state world notes
      { after with aborted := early } final := by
  cases takes with
  | skip => cases failed.of_getElem? (List.getElem?_set_self inside)
  | keep clear executes kept =>
    have again := Takes.keep clear (executes.aborting early) kept
    rw [if_pos (failed.of_getElem? (List.getElem?_set_self inside))] at again
    exact ⟨rfl, again⟩
  | discard => cases failed.of_getElem? (List.getElem?_set_self inside)

end

namespace Chain

variable {state after : State} {world final : World Unit} {indices done : List Nat} {pieces : List (List Note)}

/-- Steps of which none fails are taken the same way whether a failure ends the run or not. -/
theorem aborting (chain : Chain executor options environment draws plan steps indices state world pieces after final)
    (start : Tracked steps done state) (nodup : (done ++ indices).Nodup)
    (unfailed : ∀ index ∈ indices, ¬after.run.Fails index) (early : Bool) :
    Chain executor (options.aborting early) environment draws plan steps indices state world pieces after final := by
  induction chain generalizing done with
  | nil => exact .nil
  | @cons index _ _ _ _ _ _ _ _ _ _ atIndex takes chain ih =>
    obtain ⟨new, alone, nodup⟩ := next_of_nodup nodup
    have own := unfailed index List.mem_cons_self
    rw [Run.Fails, chain.getElem?_of_notMem alone] at own
    exact .cons atIndex (takes.aborting (start.inside atIndex) own early)
      (ih (start.takes new atIndex takes) nodup fun other member => unfailed other (List.mem_cons_of_mem _ member))

/-- A run that is canceled stays so. -/
theorem run_canceled
    (chain : Chain executor options environment draws plan steps indices state world pieces after final)
    (canceled : state.run.canceled = true) : after.run.canceled = true := by
  induction chain with
  | nil => exact canceled
  | cons _ takes _ ih =>
    obtain ⟨result, settles⟩ := takes.settles
    exact ih (settles.canceled canceled)

/-- What the notes of a chain tell about its steps. -/
theorem tells (chain : Chain executor options environment draws plan steps indices state world pieces after final)
    (start : Tracked steps done state) (nodup : (done ++ indices).Nodup) :
    TellsSteps steps after.run indices pieces := by
  induction chain generalizing done with
  | nil => exact .nil
  | @cons _ _ step _ _ _ _ _ _ _ _ atIndex takes chain ih =>
    obtain ⟨new, alone, nodup⟩ := next_of_nodup nodup
    obtain ⟨⟨result, atResult, tells⟩, -⟩ := takes.tells start new atIndex
    refine .cons ⟨step, result, atIndex, (chain.getElem?_of_notMem alone).trans atResult, ?_⟩
      (ih (start.takes new atIndex takes) nodup)
    exact tells.later chain.stepNote_eq chain.run_canceled

end Chain

/-- How a run that ended early after a step failed compares with the run that went on: the steps in front of that step
and the step itself read the same, were told of the same and sent the same requests. Behind it every step is skipped,
and no call is made. -/
structure CutShort (steps : List Step) (earlier : List Request) (run short : Run)
    (calls shortCalls : List (Nat × Request)) (front : List Nat) (index : Nat) (back : List Nat) : Prop where
  same : ∀ other ∈ front ++ [index], short.results[other]? = run.results[other]?
  behind : ∀ other ∈ back, ∃ result, short.results[other]? = some result ∧
    Blank "aborted after an earlier failure" result
  calls : ∃ more, calls = shortCalls ++ more
  told : ∃ pieces, TellsSteps steps run (front ++ [index]) pieces ∧ TellsSteps steps short (front ++ [index]) pieces ∧
    shortCalls.map Prod.snd = earlier ++ pieces.flatten.filterMap Note.request?

namespace Chain

variable {state after stopped : State} {world final last : World Unit} {front back : List Nat} {index : Nat}
  {pieces shortPieces : List (List Note)}

/-- The same steps taken twice, once without an early end and once with it: the first failure cuts the second chain
short. -/
theorem cutShort
    (whole : Chain executor options environment draws plan steps (front ++ index :: back) state world pieces after
      final)
    (short : Chain executor (options.aborting true) environment draws plan steps (front ++ index :: back) state world
      shortPieces stopped last)
    (start : Tracked steps [] state) (nodup : (front ++ index :: back).Nodup)
    (unfailed : ∀ other ∈ front, ¬after.run.Fails other) (failed : after.run.Fails index) :
    CutShort steps world.requests after.run stopped.run final.calls last.calls front index back := by
  obtain ⟨frontNodup, restNodup, disjoint⟩ := List.nodup_append'.mp nodup
  obtain ⟨new, -, behindNodup⟩ := next_of_nodup nodup
  obtain ⟨alone, -⟩ := List.nodup_cons.mp restNodup
  obtain ⟨first, piece, second, step, before, past, between, middle, rfl, -, ahead, atIndex, takes, behind⟩ :=
    whole.visit
  obtain ⟨_, _, _, shortStep, _, _, _, _, -, -, shortAhead, atShort, shortTakes, shortBehind⟩ := short.visit
  obtain rfl : step = shortStep := Option.some.inj (atIndex.symm.trans atShort)
  have tracked := ahead.tracked start frontNodup
  have settled := tracked.takes new atIndex takes
  -- Up to the failure the second chain goes the way of the first one.
  have unfailedBefore : ∀ other ∈ front, ¬before.run.Fails other := fun other member => by
    have same := Chain.getElem?_of_notMem (.cons atIndex takes behind) (disjoint member)
    exact fun fails => unfailed other member (by rwa [Run.Fails, same])
  have failedBetween : between.run.Fails index := by rwa [Run.Fails, behind.getElem?_of_notMem alone] at failed
  obtain ⟨-, rfl, rfl⟩ := ((ahead.aborting start frontNodup unfailedBefore true).runs start frontNodup).deterministic
    (shortAhead.runs start frontNodup)
  obtain ⟨calm, again⟩ := takes.aborting_of_fails (tracked.inside atIndex) failedBetween true
  obtain ⟨-, rfl, rfl⟩ := (again.runs (tracked.inside atIndex)).deterministic
    (shortTakes.runs (tracked.inside atIndex))
  -- Behind it the second chain only skips.
  have trackedShort : Tracked steps (front ++ [index]) { between with aborted := true } :=
    tracked.takes new atIndex again
  have stops : ({ between with aborted := true } : State).stop? =
      some "aborted after an earlier failure" := by simp [State.stop?, calm]
  obtain ⟨rfl, skips⟩ := shortBehind.stopped trackedShort behindNodup stops
  have apart (other : Nat) (member : other ∈ front ++ [index]) : other ∉ back := by
    rcases List.mem_append.mp member with old | own
    · exact fun later => disjoint old (List.mem_cons_of_mem _ later)
    · rwa [List.mem_singleton.mp own]
  have told : TellsSteps steps between.run (front ++ [index]) (first ++ [piece]) := by
    obtain ⟨⟨result, atResult, tells⟩, -⟩ := takes.tells tracked new atIndex
    obtain ⟨_, settles⟩ := takes.settles
    refine List.rel_append ((ahead.tells start frontNodup).later (fun other member => settles.getElem?_ne ?_)
      settles.stepNote_eq settles.canceled) (.cons ⟨step, result, atIndex, atResult, tells⟩ .nil)
    rintro rfl
    exact new member
  refine ⟨fun other member => ?_, fun other member => ?_, ?_, first ++ [piece], ?_, ?_, ?_⟩
  · rw [shortBehind.getElem?_of_notMem (apart other member), behind.getElem?_of_notMem (apart other member)]
  · obtain ⟨_, -, atOther⟩ := skips other member
    exact ⟨_, atOther, blank_skipped _ _⟩
  · exact (behind.runs settled behindNodup).exists_calls
  · exact told.later (fun other member => behind.getElem?_of_notMem (apart other member)) behind.stepNote_eq
      behind.run_canceled
  · exact told.later (fun other member => shortBehind.getElem?_of_notMem (apart other member))
      shortBehind.stepNote_eq shortBehind.run_canceled
  · have sent : last.requests = past.requests ++ piece.filterMap Note.request? :=
      (takes.tells tracked new atIndex).2
    rw [ahead.requests start frontNodup] at sent
    simpa [World.requests] using sent

end Chain

/-- A run with a failed step failed. -/
theorem finalStatus_of_fails {run : Run} {index : Nat} (failed : run.Fails index) : finalStatus run = .failed := by
  obtain ⟨result, atIndex, status⟩ := Option.map_eq_some_iff.mp failed
  have counted : 0 < run.count .failed :=
    List.countP_pos_iff.mpr ⟨result, List.mem_of_getElem? atIndex, by simp [status]⟩
  simp [finalStatus, counted]

section

variable {σ : Type} {observe : σ → Note → σ} {world final : World σ} {scenario : Scenario} {start : Start} {run : Run}

/-- In a script that goes on, every step behind a failed one is skipped. -/
theorem skipped_behind_failure (valid : scenario.validate = .ok plan) (script : ∃ steps, scenario.flow = .script steps)
    (goesOn : options.abortOnFailure = false) (calm : world.canceled = false) (steady : executor.Steady)
    (carried : carryOut options scenario start executor observe world = (some (.ok run), final))
    {front back : List Nat} {index : Nat} (split : plan.order = front ++ index :: back) (failed : run.Fails index) :
    ∀ other ∈ back, run.results[other]?.map StepResult.status = some .skipped := by
  have sound := Scenario.sound_of_validate valid
  obtain ⟨state, -, rfl, -, tracked, cascading⟩ := carryOut_invariant valid
    (fun done _ state now => Cascading plan done state now)
    ⟨opening_synced scenario start world, calm, rfl, by simp⟩
    (fun done index rest split new step atIndex notes state now tracked cascading more after last takes =>
      cascading.takes steady goesOn sound split new atIndex tracked takes)
    carried
  intro other member
  have placed : other ∈ plan.order := by simp [split, member]
  have inside : other < state.run.results.length := tracked.length ▸ sound.mem_order_iff.mp placed
  -- The order of a script is its chain of dependencies, so the failed step reaches this one.
  have before : Plan.Before plan.order index other := by
    obtain ⟨between, rest, rfl⟩ := List.append_of_mem member
    have again : plan.order = (front ++ index :: between) ++ other :: rest := by simp [split]
    rw [again]
    exact Plan.before_of_mem_front (again ▸ sound.nodup) (by simp)
  have reaches : scenario.Reaches plan index other := by
    obtain ⟨steps, flow⟩ := script
    rwa [Scenario.Reaches, flow]
  obtain ⟨result, atIndex, status⟩ := Option.map_eq_some_iff.mp failed
  have behind : BehindFailure plan state.run other :=
    ⟨index, result, (Scenario.transGen_dependsOn_iff valid).mpr reaches, atIndex, status⟩
  have skipped_iff (index : Nat) (result : StepResult) (atIndex : state.run.results[index]? = some result) :
      result.status = .skipped ↔ Barred plan state.run index := by
    have within := (List.getElem?_eq_some_iff.mp atIndex).1
    exact cascading.skipped_iff index (sound.mem_order_iff.mpr (tracked.length ▸ within)) result atIndex
  have barred := behind.barred sound tracked.length skipped_iff (sound.mem_order_iff.mp placed)
  show state.run.results[other]?.map StepResult.status = some .skipped
  rw [List.getElem?_eq_getElem inside, Option.map_some]
  exact congrArg some ((skipped_iff other _ (List.getElem?_eq_getElem inside)).mpr barred)

/-- The status of a run is told by its results and by whether it was canceled. -/
theorem status_of_carryOut (valid : scenario.validate = .ok plan)
    (carried : carryOut options scenario start executor observe world = (some (.ok run), final)) :
    run.status = finalStatus run := by
  obtain ⟨state, pieces, rfl, -, -⟩ := carryOut_chain valid carried
  rfl

/-- The record of a run has a result for each step. -/
theorem length_of_carryOut (valid : scenario.validate = .ok plan)
    (carried : carryOut options scenario start executor observe world = (some (.ok run), final)) :
    run.results.length = scenario.steps.length := by
  obtain ⟨state, pieces, rfl, -, chain⟩ := carryOut_chain valid carried
  exact (chain.tracked (opening_tracked scenario _) (Scenario.sound_of_validate valid).nodup).length

end

/-- A run that nothing cancels is carried out twice, once to its end and once with an early end after the first failure.
If no step fails, the two do not differ. Otherwise they go the same way up to and including the first step that fails,
and the second one skips the steps behind it without any call. Both end with the same status, and in a script every step
does. -/
theorem carryOut_aborts {σ : Type} (options : RunOptions) (scenario : Scenario) (plan : Plan) (start : Start)
    (executor : Executor) (observe : σ → Note → σ) (world : World σ) (valid : scenario.validate = .ok plan)
    (calm : world.canceled = false) (steady : executor.Steady) :
    (start.environment.check = .ok () → executor.Answers → ∀ early, ∃ run final,
      carryOut (options.aborting early) scenario start executor observe world = (some (.ok run), final)) ∧
    ∀ run final short last,
      carryOut (options.aborting false) scenario start executor observe world = (some (.ok run), final) →
      carryOut (options.aborting true) scenario start executor observe world = (some (.ok short), last) →
        short.status = run.status ∧
        ((∀ index ∈ plan.order, ¬run.Fails index) → short = run ∧ last = final) ∧
        (∀ front index back, plan.order = front ++ index :: back → (∀ other ∈ front, ¬run.Fails other) →
          run.Fails index →
            CutShort scenario.steps world.requests run short final.calls last.calls front index back) ∧
        ((∃ steps, scenario.flow = .script steps) →
          short.results.map StepResult.status = run.results.map StepResult.status) := by
  refine ⟨fun checked answers early => exists_carryOut valid checked answers,
    fun run final short last carried carriedShort => ?_⟩
  have sound := Scenario.sound_of_validate valid
  have length := length_of_carryOut valid carried
  have shortLength := length_of_carryOut valid carriedShort
  have opened := opening_tracked scenario (start.told world.canceled)
  have nodup : ([] ++ plan.order).Nodup := sound.nodup
  -- Without a failure the two chains are one chain.
  have whole (unfailed : ∀ index ∈ plan.order, ¬run.Fails index) : short = run ∧ last = final := by
    obtain ⟨state, pieces, rfl, seen, chain⟩ := carryOut_chain valid carried
    obtain ⟨shortState, shortPieces, rfl, shortSeen, shortChain⟩ := carryOut_chain valid carriedShort
    obtain ⟨same, rfl, worlds⟩ := ((chain.aborting opened nodup unfailed true).runs opened nodup).deterministic
      (shortChain.runs opened nodup)
    exact ⟨rfl, World.ext_forget worlds.symm (by rw [shortSeen, seen, same])⟩
  have cut (front : List Nat) (index : Nat) (back : List Nat) (split : plan.order = front ++ index :: back)
      (unfailed : ∀ other ∈ front, ¬run.Fails other) (failed : run.Fails index) :
      CutShort scenario.steps world.requests run short final.calls last.calls front index back := by
    obtain ⟨state, pieces, rfl, -, chain⟩ := carryOut_chain valid carried
    obtain ⟨shortState, shortPieces, rfl, -, shortChain⟩ := carryOut_chain valid carriedShort
    rw [split] at chain shortChain nodup
    obtain ⟨same, behind, calls, pieces, told, toldShort, sent⟩ :=
      chain.cutShort shortChain opened nodup unfailed failed
    exact ⟨same, behind, calls, pieces, told.later (fun _ _ => rfl) rfl id, toldShort.later (fun _ _ => rfl) rfl id,
      sent⟩
  refine ⟨?_, whole, cut, fun script => ?_⟩
  · rcases run.first_fails plan.order with unfailed | ⟨front, index, back, split, unfailed, failed⟩
    · rw [(whole unfailed).1]
    · have failedShort : short.Fails index := by
        rwa [Run.Fails, (cut front index back split unfailed failed).same index (by simp)]
      rw [status_of_carryOut valid carried, status_of_carryOut valid carriedShort, finalStatus_of_fails failed,
        finalStatus_of_fails failedShort]
  · rcases run.first_fails plan.order with unfailed | ⟨front, index, back, split, unfailed, failed⟩
    · rw [(whole unfailed).1]
    · have cutShort := cut front index back split unfailed failed
      have skips := skipped_behind_failure valid script rfl calm steady carried split failed
      refine List.ext_getElem (by simp [length, shortLength]) fun other inside within => ?_
      have placed : other ∈ (front ++ [index]) ++ back := by
        have member : other ∈ plan.order := sound.mem_order_iff.mpr (by simpa [shortLength] using inside)
        simpa [split] using member
      refine Option.some.inj ?_
      rw [← List.getElem?_eq_getElem inside, ← List.getElem?_eq_getElem within, List.getElem?_map, List.getElem?_map]
      rcases List.mem_append.mp placed with before | after
      · rw [cutShort.same other before]
      · obtain ⟨result, atOther, blank⟩ := cutShort.behind other after
        rw [skips other after, atOther, Option.map_some, blank.status]

/-- A server that refuses the requests of the early step. -/
def refusesEarly : Executor := fun _ request =>
  some { outcome := if request.url = "http://host/early" then .error { cause := "refused" } else .ok { status := 200 } }

theorem twin_aborts :
    twin.validate = .ok twinPlan ∧ refusesEarly.Steady ∧
      ∃ run final short last,
        carryOut (RunOptions.aborting {} false) twin plainStart refusesEarly (fun seen _ => seen) { seen := () } =
          (some (.ok run), final) ∧
        carryOut (RunOptions.aborting {} true) twin plainStart refusesEarly (fun seen _ => seen) { seen := () } =
          (some (.ok short), last) ∧
        CutShort twin.steps [] run short final.calls last.calls [] 1 [0] ∧ short.status = run.status ∧
        run.results.map StepResult.status = [.passed, .failed] ∧
        short.results.map StepResult.status = [.skipped, .failed] := by
  have valid : twin.validate = .ok twinPlan := by rfl
  have steady : refusesEarly.Steady := by
    intro earlier request served answer
    cases answer
    rfl
  have answers : refusesEarly.Answers := fun _ _ => rfl
  obtain ⟨carries, compares⟩ := carryOut_aborts {} twin twinPlan plainStart refusesEarly (fun seen _ => seen)
    { seen := () } valid rfl steady
  obtain ⟨run, final, carried⟩ := carries rfl answers false
  obtain ⟨short, last, carriedShort⟩ := carries rfl answers true
  obtain ⟨status, -, cut, -⟩ := compares run final short last carried carriedShort
  have statuses : (carryOut (RunOptions.aborting {} false) twin plainStart refusesEarly (fun seen _ => seen)
      { seen := () }).1.map (fun result => result.toOption.map fun run => run.results.map StepResult.status) =
        some (some [.passed, .failed]) := by rfl
  have shortStatuses : (carryOut (RunOptions.aborting {} true) twin plainStart refusesEarly (fun seen _ => seen)
      { seen := () }).1.map (fun result => result.toOption.map fun run => run.results.map StepResult.status) =
        some (some [.skipped, .failed]) := by rfl
  rw [carried] at statuses
  rw [carriedShort] at shortStatuses
  have passed : run.results.map StepResult.status = [.passed, .failed] := Option.some.inj (Option.some.inj statuses)
  have failed : run.Fails 1 := by rw [Run.Fails, ← List.getElem?_map, passed]; rfl
  exact ⟨valid, steady, run, final, short, last, carried, carriedShort, cut [] 1 [0] rfl (by simp) failed, status,
    passed, Option.some.inj (Option.some.inj shortStatuses)⟩

end Engine
end Runbook

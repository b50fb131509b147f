import Runbook.Proofs.Run.Interrupt
import Runbook.Proofs.Run.Provenance

/-!
A run that is canceled while a request of one of its steps is in flight. The steps in front of that step end as they do
in the run that nothing cancels; its own result is thrown away, and the steps behind it are not executed.
-/

namespace Runbook.Engine

open Interaction

variable {executor : Executor} {options : RunOptions} {environment : Environment} {draws : Template.Draws}
  {plan : Plan} {steps : List Step}

/-- The notes of some steps are cut at the step that sent a given request. -/
theorem exists_piece {pieces : List (List Note)} {earlier later : List Request} {request : Request}
    (sent : pieces.flatten.filterMap Note.request? = earlier ++ request :: later) :
    ∃ first piece second own rest, pieces = first ++ piece :: second ∧
      earlier = first.flatten.filterMap Note.request? ++ own ∧
      piece.filterMap Note.request? = own ++ request :: rest ∧
      later = rest ++ second.flatten.filterMap Note.request? := by
  induction pieces generalizing earlier with
  | nil => simp at sent
  | cons head tail ih =>
    rw [List.flatten_cons, List.filterMap_append] at sent
    rcases List.append_eq_append_iff.mp sent with ⟨own, rfl, behind⟩ | ⟨more, split, behind⟩
    · obtain ⟨first, piece, second, own, rest, rfl, rfl, found, rfl⟩ := ih behind
      exact ⟨head :: first, piece, second, own, rest, rfl, by simp, found, rfl⟩
    · cases more with
      | nil =>
        have behind : tail.flatten.filterMap Note.request? = [] ++ request :: later := behind.symm
        obtain ⟨first, piece, second, own, rest, rfl, none, found, rfl⟩ := ih behind
        refine ⟨head :: first, piece, second, own, rest, rfl, ?_, found, rfl⟩
        rw [List.append_nil] at split
        rw [List.flatten_cons, List.filterMap_append, List.append_assoc, ← none, List.append_nil, split]
      | cons own rest =>
        obtain ⟨rfl, rfl⟩ := List.cons.inj behind
        exact ⟨[], head, tail, earlier, rest, rfl, rfl, split, rfl⟩

theorem runs_skip {step : Step} {index : Nat} {state after : State} {world : World Unit} {reason : String}
    (pending : StepResult) (current : state.result step index = pending)
    (ends : state.setResult index (skipped pending reason) = after) :
    Runs executor (state.skip step index reason) world [state.event (skipped pending reason)] after world := by
  subst current ends
  exact .note .done

/-- What a step takes is what running it gives. -/
theorem Takes.runs {step : Step} {index : Nat} {state after : State} {world final : World Unit} {notes : List Note}
    (inside : index < state.run.results.length)
    (takes : Takes executor options environment draws plan step index state world notes after final) :
    Runs executor (runStep options environment draws plan step index state) world notes after final := by
  unfold runStep
  cases takes with
  | skip why =>
    simp only [why]
    exact .note .done
  | keep clear executes kept =>
    simp only [clear, bind_eq]
    refine .note (runs_bind_iff.mpr ⟨_, _, _, _, rfl, executes.runs, ?_⟩)
    simp only [kept, Bool.false_eq_true, if_false, State.setResult, List.set_set]
    exact .note .done
  | discard clear executes discarded =>
    simp only [clear, bind_eq]
    refine .note (runs_bind_iff.mpr ⟨_, _, _, _, rfl, executes.runs, ?_⟩)
    simp only [discarded, if_true]
    refine runs_skip (running (state.result step index)) (result_setResult inside _) ?_
    simp only [State.setResult, List.set_set]
    rfl

/-- A step whose request cancels the run is the last one to send a request, and its result is thrown away. -/
theorem Takes.interrupted {step : Step} {index : Nat} {state after : State} {world final : World Unit}
    {notes : List Note} {earlier later : List Request} {request : Request}
    (takes : Takes executor options environment draws plan step index state world notes after final)
    (interrupts : Interrupts executor world final earlier request later) :
    later = [] ∧ state.canceled = false ∧ after.canceled = true ∧ after.run.results =
      state.run.results.set index (skipped (state.result step index) "run canceled while request was in flight") := by
  cases takes with
  | skip => exact absurd interrupts Interrupts.irrefl
  | keep _ executes kept =>
    rw [(executes.interrupted interrupts).2] at kept
    cases kept
  | discard clear executes _ =>
    exact ⟨(executes.interrupted interrupts).1, (skipReason?_eq_none_iff.mp clear).1, rfl, rfl⟩

/-- Why a run goes no further, if it does not. -/
def State.stop? (state : State) : Option String :=
  if state.canceled then some "run canceled"
  else if state.aborted then some "aborted after an earlier failure"
  else none

/-- Where a run goes no further, that is the reason to skip any step. -/
theorem State.skipReason?_of_stop? {state : State} {reason : String} (stops : state.stop? = some reason)
    (index : Nat) : state.skipReason? plan index = some reason := by
  unfold State.stop? at stops
  unfold State.skipReason?
  by_cases canceled : state.canceled = true
  · rwa [if_pos canceled] at stops ⊢
  · rw [if_neg canceled] at stops ⊢
    by_cases aborted : state.aborted = true
    · rwa [if_pos aborted] at stops ⊢
    · rw [if_neg aborted] at stops
      cases stops

namespace Chain

variable {state after : State} {world final : World Unit} {indices done : List Nat} {pieces : List (List Note)}

/-- A chain is cut around the step that left a given part of the notes. -/
theorem visit_piece {first second : List (List Note)} {piece : List Note}
    (chain : Chain executor options environment draws plan steps indices state world (first ++ piece :: second) after
      final) :
    ∃ front index back step before past between middle, indices = front ++ index :: back ∧
      Chain executor options environment draws plan steps front state world first before past ∧
      steps[index]? = some step ∧
      Takes executor options environment draws plan step index before past piece between middle ∧
      Chain executor options environment draws plan steps back between middle second after final := by
  induction first generalizing indices state world with
  | nil =>
    cases chain with
    | cons atIndex takes rest => exact ⟨[], _, _, _, _, _, _, _, rfl, .nil, atIndex, takes, rest⟩
  | cons head tail ih =>
    cases chain with
    | cons atHead takes rest =>
      obtain ⟨front, index, back, step, before, past, between, middle, rfl, earlier, own⟩ := ih rest
      exact ⟨_ :: front, index, back, step, before, past, between, middle, rfl, .cons atHead takes earlier, own⟩

/-- A chain is what running its steps gives. -/
theorem runs (chain : Chain executor options environment draws plan steps indices state world pieces after final)
    (start : Tracked steps done state) (nodup : (done ++ indices).Nodup) :
    Runs executor (runSteps options environment draws plan steps indices state) world pieces.flatten after final := by
  induction chain generalizing done with
  | nil => exact .done
  | cons atIndex takes _ ih =>
    obtain ⟨new, -, nodup⟩ := next_of_nodup nodup
    unfold runSteps
    simp only [atIndex, bind_eq]
    exact runs_bind_iff.mpr ⟨_, _, _, _, rfl, takes.runs (start.inside atIndex),
      ih (start.takes new atIndex takes) nodup⟩

/-- Once the run goes no further no request is sent, and every step is skipped for the reason of that. -/
theorem stopped {reason : String}
    (chain : Chain executor options environment draws plan steps indices state world pieces after final)
    (start : Tracked steps done state) (nodup : (done ++ indices).Nodup) (stops : state.stop? = some reason) :
    final = world ∧ ∀ index ∈ indices, ∃ step, steps[index]? = some step ∧
      after.run.results[index]? = some (skipped (.ofStep step) reason) := by
  induction chain generalizing done with
  | nil => exact ⟨rfl, by simp⟩
  | @cons _ _ step _ _ _ _ _ _ _ _ atIndex takes chain ih =>
    obtain ⟨new, alone, nodup⟩ := next_of_nodup nodup
    have tracked := start.takes new atIndex takes
    cases takes with
    | skip why =>
      obtain ⟨still, behind⟩ := ih tracked nodup stops
      obtain rfl := Option.some.inj ((State.skipReason?_of_stop? stops _).symm.trans why)
      refine ⟨still, fun other member => ?_⟩
      rcases List.mem_cons.mp member with rfl | later
      · refine ⟨step, atIndex, (chain.getElem?_of_notMem alone).trans ?_⟩
        rw [List.getElem?_set_self (start.inside atIndex), start.result_eq new atIndex]
      · exact behind other later
    | keep clear => simp [State.skipReason?_of_stop? stops] at clear
    | discard clear => simp [State.skipReason?_of_stop? stops] at clear

/-- Once the run is canceled no request is sent, and every step is skipped. -/
theorem halted (chain : Chain executor options environment draws plan steps indices state world pieces after final)
    (start : Tracked steps done state) (nodup : (done ++ indices).Nodup) (canceled : state.canceled = true) :
    final = world ∧ ∀ index ∈ indices, ∃ step, steps[index]? = some step ∧
      after.run.results[index]? = some (skipped (.ofStep step) "run canceled") :=
  chain.stopped start nodup (by rw [State.stop?, if_pos canceled])

/-- A chain is cut around the step that sent the request which cancels the run. It is the last request of the chain, and
the result of that step is thrown away. -/
theorem cut {earlier later : List Request} {request : Request}
    (chain : Chain executor options environment draws plan steps indices state world pieces after final)
    (start : Tracked steps [] state) (nodup : indices.Nodup)
    (interrupts : Interrupts executor world final earlier request later) :
    later = [] ∧ ∃ first piece second own front index back step before past between middle,
      pieces = first ++ piece :: second ∧ indices = front ++ index :: back ∧
      Chain executor options environment draws plan steps front state world first before past ∧
      steps[index]? = some step ∧
      Takes executor options environment draws plan step index before past piece between middle ∧
      Chain executor options environment draws plan steps back between middle second after final ∧
      earlier = first.flatten.filterMap Note.request? ++ own ∧ piece.filterMap Note.request? = own ++ [request] ∧
      second.flatten.filterMap Note.request? = [] ∧ before.canceled = false ∧ between.canceled = true ∧
      between.run.results[index]? = some (skipped (.ofStep step) "run canceled while request was in flight") := by
  have sent : pieces.flatten.filterMap Note.request? = earlier ++ request :: later :=
    List.append_cancel_left ((chain.requests start nodup).symm.trans interrupts.requests)
  obtain ⟨first, piece, second, own, rest, rfl, rfl, found, rfl⟩ := exists_piece sent
  obtain ⟨front, index, back, step, before, past, between, middle, rfl, ahead, atIndex, takes, behind⟩ :=
    chain.visit_piece
  obtain ⟨new, -, afterNodup⟩ := next_of_nodup nodup
  have frontNodup := (List.nodup_append'.mp nodup).1
  have tracked := ahead.tracked start frontNodup
  have own_interrupts : Interrupts executor past middle own request rest :=
    ⟨by rw [(takes.tells tracked new atIndex).2, found],
      by rw [ahead.requests start frontNodup, List.append_assoc]; exact interrupts.trips⟩
  obtain ⟨rfl, quiet, canceled, results⟩ := takes.interrupted own_interrupts
  have settled := tracked.takes new atIndex takes
  have silent : second.flatten.filterMap Note.request? = [] := by
    have more := behind.requests settled afterNodup
    rw [(behind.halted settled afterNodup canceled).1] at more
    exact List.self_eq_append_right.mp more
  refine ⟨silent, first, piece, second, own, front, index, back, step, before, past, between, middle, rfl, rfl, ahead,
    atIndex, takes, behind, rfl, found, silent, quiet, canceled, ?_⟩
  rw [results, List.getElem?_set_self (tracked.inside atIndex), tracked.result_eq new atIndex]

/-- The steps in front of a cancellation end as they do without it. -/
theorem getElem?_calm {front back : List Nat} {first second calmPieces : List (List Note)} {before other : State}
    {past calmFinal : World Unit}
    (earlier : Chain executor options environment draws plan steps front state world first before past)
    (later : Chain executor options environment draws plan steps back before past second after final)
    (calm : Chain executor.calm options environment draws plan steps (front ++ back) state world calmPieces other
      calmFinal)
    (start : Tracked steps [] state) (nodup : (front ++ back).Nodup) (quiet : past.canceled = false) {index : Nat}
    (member : index ∈ front) : after.run.results[index]? = other.run.results[index]? := by
  obtain ⟨frontNodup, -, disjoint⟩ := List.nodup_append'.mp nodup
  obtain ⟨_, _, calmBefore, _, -, -, calmEarlier, calmLater⟩ := calm.split
  obtain ⟨-, rfl, -⟩ := ((earlier.runs start frontNodup).calm quiet).deterministic (calmEarlier.runs start frontNodup)
  rw [later.getElem?_of_notMem (disjoint member), calmLater.getElem?_of_notMem (disjoint member)]

end Chain

/-- A step is skipped for a reason, and its result shows neither a request nor a response. -/
structure Blank (reason : String) (result : StepResult) : Prop where
  status : result.status = .skipped
  error : result.error = some reason
  request : result.request = none
  response : result.response = none
  captured : result.captured = []
  failures : result.failures = []

theorem blank_skipped (step : Step) (reason : String) : Blank reason (skipped (.ofStep step) reason) :=
  ⟨rfl, rfl, rfl, rfl, rfl, rfl⟩

/-- How a run reads that was canceled while a step had a request in flight, after some earlier requests of the run. The
notes of the steps show the request as the last one, and as one of this step. -/
structure Interrupted (steps : List Step) (run : Run) (earlier : List Request) (request : Request) (notes : List Note)
    (index : Nat) (back : List Nat) : Prop where
  status : run.status = .failed
  canceled : run.canceled = true
  inFlight : ∃ step result, steps[index]? = some step ∧ run.results[index]? = some result ∧
    Blank "run canceled while request was in flight" result ∧ ∃ before piece behind own,
      notes = before ++ piece ++ behind ∧ Tells run step result piece ∧
      earlier = before.filterMap Note.request? ++ own ∧ piece.filterMap Note.request? = own ++ [request] ∧
      behind.filterMap Note.request? = []
  behind : ∀ other ∈ back, ∃ result, run.results[other]? = some result ∧ Blank "run canceled" result

/-- A run that ends in a canceled world failed. -/
theorem Synced.failed {done : List Nat} {state : State} {world : World Unit} (synced : Synced done state world)
    (some : done ≠ []) (canceled : world.canceled = true) (start : Start) :
    (finished start state).status = .failed ∧ (finished start state).canceled = true := by
  have flag : state.run.canceled = true := (synced.told some).trans canceled
  refine ⟨?_, flag⟩
  show finalStatus state.run = .failed
  rw [finalStatus, flag, Bool.true_or, if_pos rfl]

/-- A run that is canceled from the start sends no request, and all its steps are skipped. A run that is canceled while
a request is in flight sends no request after that. The step that sent it is skipped, as are the steps behind it, and
the steps in front of it end as they do in the run that nothing cancels. -/
theorem carryOut_cancels {σ : Type} (options : RunOptions) (scenario : Scenario) (plan : Plan) (start : Start)
    (executor : Executor) (observe : σ → Note → σ) (world : World σ) (valid : scenario.validate = .ok plan) :
    (start.environment.check = .ok () → executor.Answers →
      (∃ run final, carryOut options scenario start executor observe world = (some (.ok run), final)) ∧
      ∃ run final, carryOut options scenario start executor.calm observe world = (some (.ok run), final)) ∧
    ∀ run final, carryOut options scenario start executor observe world = (some (.ok run), final) →
      (world.canceled = true → final.requests = world.requests ∧ run.status = .failed ∧ run.canceled = true ∧
        ∀ index ∈ plan.order, ∃ result, run.results[index]? = some result ∧ Blank "run canceled" result) ∧
      ∀ earlier request later, final.requests = world.requests ++ (earlier ++ request :: later) →
        executor.Trips (world.requests ++ earlier) request →
        later = [] ∧ ∃ front index back notes, plan.order = front ++ index :: back ∧
          Interrupted scenario.steps run earlier request notes index back ∧
          final.seen = (notes ++ [Note.progress (.ofRun run)]).foldl observe world.seen ∧
          ∀ other last, carryOut options scenario start executor.calm observe world = (some (.ok other), last) →
            ∀ before ∈ front, run.results[before]? = other.results[before]? := by
  refine ⟨fun checked answers => ⟨exists_carryOut valid checked answers, exists_carryOut valid checked answers.calm⟩,
    fun run final carried => ?_⟩
  have sound := Scenario.sound_of_validate valid
  have nodup : ([] ++ plan.order).Nodup := sound.nodup
  have opened := opening_tracked scenario (start.told world.canceled)
  obtain ⟨state, pieces, rfl, seen, chain⟩ := carryOut_chain valid carried
  have synced := chain.synced (opening_synced scenario start world)
  have some := Scenario.order_ne_nil valid
  constructor
  · intro canceled
    obtain ⟨still, skipped⟩ := chain.halted opened nodup canceled
    have flag : final.forget.canceled = true := still ▸ canceled
    obtain ⟨failed, told⟩ := synced.failed some flag start
    have requests : final.forget.requests = world.requests := by rw [still, World.requests_forget]
    refine ⟨requests, failed, told, fun index member => ?_⟩
    obtain ⟨step, -, atIndex⟩ := skipped index member
    exact ⟨_, atIndex, blank_skipped step _⟩
  · intro earlier request later requests trips
    have interrupts : Interrupts executor world.forget final.forget earlier request later := ⟨requests, trips⟩
    obtain ⟨last, first, piece, second, own, front, index, back, step, before, past, between, middle, rfl, split, ahead,
      atIndex, takes, behind, rfl, found, silent, quiet, canceled, atResult⟩ := chain.cut opened nodup interrupts
    rw [List.nil_append, split] at nodup
    obtain ⟨new, alone, afterNodup⟩ := next_of_nodup nodup
    have tracked := ahead.tracked opened (List.nodup_append'.mp nodup).1
    have flag : final.forget.canceled = true := synced.token.symm.trans (behind.canceled canceled)
    obtain ⟨failed, told⟩ := synced.failed some flag start
    refine ⟨last, front, index, back, _, split, ⟨failed, told, ?_, fun other member => ?_⟩, seen, ?_⟩
    · obtain ⟨⟨result, atOwn, tells⟩, -⟩ := takes.tells tracked new atIndex
      obtain rfl := Option.some.inj (atOwn.symm.trans atResult)
      have same : stepNote (finished start state) = stepNote between.run := behind.stepNote_eq
      refine ⟨step, _, atIndex, (behind.getElem?_of_notMem alone).trans atResult, blank_skipped step _, first.flatten,
        piece, second.flatten, own, ?_, tells.later same fun _ => told, rfl, found, silent⟩
      rw [List.flatten_append, List.flatten_cons, List.append_assoc]
    · obtain ⟨-, skips⟩ := behind.halted (tracked.takes new atIndex takes) afterNodup canceled
      obtain ⟨step, -, atOther⟩ := skips other member
      exact ⟨_, atOther, blank_skipped step _⟩
    · intro other last carriedCalm place member
      obtain ⟨calmState, _, rfl, -, calmChain⟩ := carryOut_chain valid carriedCalm
      rw [split] at calmChain
      have opens := opening_synced scenario start world
      have pastCalm : past.canceled = false := (ahead.synced opens).token.symm.trans quiet
      exact ahead.getElem?_calm (.cons atIndex takes behind) calmChain opened nodup pastCalm member

/-- Three steps, of which the second one is tried again after a network error. -/
def patient : Scenario :=
  { id := "patient", name := "patient"
    flow := .graph
      [Plan.plainStep "first" 0, { Plan.plainStep "second" 1 with options := { retry := 3 } }, Plan.plainStep "third" 2]
      [] }

/-- The plan of the three steps. -/
def patientPlan : Plan := ⟨[0, 1, 2], [[], [], []], [[], [], []]⟩

/-- A server that refuses the requests of the second step; the run is canceled while the third request is in flight. -/
def refusesSecond : Executor := fun earlier request =>
  some {
    outcome := if request.url = "http://host/second" then .error { cause := "refused" } else .ok { status := 200 }
    cancels := earlier.length == 2 }

/-- A request for a page of the host. -/
def pageRequest (page : String) : Request := { method := .get, url := "http://host/" ++ page }

theorem patient_cancels :
    patient.validate = .ok patientPlan ∧ plainStart.environment.check = .ok () ∧ refusesSecond.Answers ∧
      ∃ run final other last, carryOut {} patient plainStart refusesSecond (fun seen _ => seen) { seen := () } =
          (some (.ok run), final) ∧
        final.requests = [pageRequest "first", pageRequest "second", pageRequest "second"] ∧
        Executor.Trips refusesSecond [pageRequest "first", pageRequest "second"] (pageRequest "second") ∧
        carryOut {} patient plainStart refusesSecond.calm (fun seen _ => seen) { seen := () } =
          (some (.ok other), last) ∧
        last.requests.length = 6 ∧ run.canceled = true ∧
        run.results.map StepResult.status = [.passed, .skipped, .skipped] ∧
        run.results[0]? = other.results[0]? := by
  have valid : patient.validate = .ok patientPlan := by rfl
  have answers : refusesSecond.Answers := fun _ _ => rfl
  obtain ⟨carries, cancels⟩ := carryOut_cancels {} patient patientPlan plainStart refusesSecond (fun seen _ => seen)
    { seen := () } valid
  obtain ⟨⟨run, final, carried⟩, other, last, calm⟩ := carries rfl answers
  have requests : (carryOut {} patient plainStart refusesSecond (fun seen _ => seen) { seen := () }).2.requests =
      [pageRequest "first", pageRequest "second"] ++ pageRequest "second" :: [] := by rfl
  have statuses : (carryOut {} patient plainStart refusesSecond (fun seen _ => seen) { seen := () }).1.map
      (fun result => result.toOption.map fun run => run.results.map StepResult.status) =
        some (some [.passed, .skipped, .skipped]) := by rfl
  have all : (carryOut {} patient plainStart refusesSecond.calm (fun seen _ => seen)
      { seen := () }).2.requests.length = 6 := by rfl
  rw [carried] at requests statuses
  rw [calm] at all
  have trips : Executor.Trips refusesSecond [pageRequest "first", pageRequest "second"] (pageRequest "second") :=
    ⟨_, rfl, rfl⟩
  obtain ⟨-, front, index, back, _, split, interrupted, -, same⟩ :=
    (cancels run final carried).2 [pageRequest "first", pageRequest "second"] (pageRequest "second") [] requests
      trips
  have passed : run.results.map StepResult.status = [.passed, .skipped, .skipped] :=
    Option.some.inj (Option.some.inj statuses)
  -- The first step passed, so it is not the one whose request was in flight.
  have ahead : 0 ∈ front := by
    cases front with
    | nil =>
      obtain ⟨rfl, -⟩ := List.cons.inj split
      obtain ⟨_, result, -, atResult, blank, -⟩ := interrupted.inFlight
      have status := congrArg (·[0]?) passed
      simp [atResult, blank.status] at status
    | cons first rest =>
      obtain ⟨rfl, -⟩ := List.cons.inj split
      exact List.mem_cons_self
  exact ⟨valid, rfl, answers, run, final, other, last, carried, requests, trips, calm, all, interrupted.canceled,
    passed, same other last calm 0 ahead⟩

end Runbook.Engine

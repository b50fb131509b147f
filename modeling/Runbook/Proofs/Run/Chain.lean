import Runbook.Proofs.Run.Course
import Runbook.Proofs.Run.Terminal

/-!
The course of a run. Step by step, in the order of the plan, a run tells either that a step is skipped, or that it begins,
the attempts to send its request, and how it ends. A run sends no request besides those attempts.
-/

namespace Runbook.Engine

open Interaction

variable {executor : Executor} {options : RunOptions} {environment : Environment} {draws : Template.Draws}
  {plan : Plan} {steps : List Step}

/-- The note that tells the result of a step of a run. -/
def stepNote (run : Run) (result : StepResult) : Note := .progress (.step (StepEvent.ofResult run result))

/-- The notes at the beginning and at the end of a step tell of no request. -/
theorem filterMap_request?_between (run : Run) (first last : StepResult) (attempts : List Note) :
    (stepNote run first :: (attempts ++ [stepNote run last])).filterMap Note.request? =
      attempts.filterMap Note.request? := by
  have none (result : StepResult) : Note.request? (stepNote run result) = none := rfl
  rw [List.filterMap_cons_none (none first), List.filterMap_append, List.filterMap_cons_none (none last),
    List.filterMap_nil, List.append_nil]

/-- Notes of attempts to send the request of a step; the step shows that request, unless it ends as skipped. -/
def AreAttempts (result : StepResult) (notes : List Note) : Prop :=
  ∀ note ∈ notes, ∃ made : Request, note.IsAttempt made ∧
    (result.status ≠ .skipped → result.request = some made.snapshot)

/-- What a run tells about one step, and the result that the step is left with. -/
inductive Tells (run : Run) (step : Step) : StepResult → List Note → Prop where
  | skipped (reason : String) :
      Tells run step (skipped (.ofStep step) reason) [stepNote run (skipped (.ofStep step) reason)]
  | executed {result : StepResult} {attempts : List Note} (status : result.status = .passed ∨ result.status = .failed)
      (sent : AreAttempts result attempts) :
      Tells run step result (stepNote run (running (.ofStep step)) :: (attempts ++ [stepNote run result]))
  /-- The run was canceled while the step was executed. -/
  | discarded {result : StepResult} {attempts : List Note} (canceled : run.canceled = true)
      (bare : result = skipped (.ofStep step) "run canceled while request was in flight")
      (sent : AreAttempts result attempts) :
      Tells run step result (stepNote run (running (.ofStep step)) :: (attempts ++ [stepNote run result]))

/-- A later record of the same run tells the same of a step. -/
theorem Tells.later {run other : Run} {step : Step} {result : StepResult} {piece : List Note}
    (tells : Tells run step result piece) (same : stepNote other = stepNote run)
    (canceled : run.canceled = true → other.canceled = true) : Tells other step result piece := by
  cases tells with
  | skipped reason =>
    rw [← same]
    exact .skipped reason
  | executed status sent =>
    rw [← same]
    exact .executed status sent
  | discarded flag bare sent =>
    rw [← same]
    exact .discarded (canceled flag) bare sent

/-- A step that ends skipped shows nothing of a request or a response. -/
theorem Tells.blank {run : Run} {step : Step} {result : StepResult} {piece : List Note}
    (tells : Tells run step result piece) (status : result.status = .skipped) :
    ∃ reason, result = Engine.skipped (.ofStep step) reason := by
  cases tells with
  | skipped reason => exact ⟨reason, rfl⟩
  | executed ends _ => simp [status] at ends
  | discarded _ bare _ => exact ⟨_, bare⟩

/-- A step that is skipped in a run that is not canceled causes no request. -/
theorem Tells.no_request {run : Run} {step : Step} {result : StepResult} {piece : List Note}
    (tells : Tells run step result piece) (calm : run.canceled = false) (status : result.status = .skipped) :
    piece.filterMap Note.request? = [] := by
  cases tells with
  | skipped => rfl
  | executed ends _ => simp [status] at ends
  | discarded canceled _ _ =>
    rw [calm] at canceled
    cases canceled

/-- The notes of a run tell about the given steps, one after another. -/
def TellsSteps (steps : List Step) (run : Run) (done : List Nat) (pieces : List (List Note)) : Prop :=
  List.Forall₂ (fun index piece => ∃ step result, steps[index]? = some step ∧ run.results[index]? = some result ∧
    Tells run step result piece) done pieces

/-- Of each step that is done something is told. -/
theorem TellsSteps.of_mem {run : Run} {done : List Nat} {pieces : List (List Note)}
    (told : TellsSteps steps run done pieces) {index : Nat} (member : index ∈ done) {result : StepResult}
    (atIndex : run.results[index]? = some result) : ∃ step piece, Tells run step result piece := by
  unfold TellsSteps at told
  induction told with
  | nil => cases member
  | @cons other piece _ _ tells _ ih =>
    rcases List.mem_cons.mp member with rfl | later
    · obtain ⟨step, own, -, atOwn, tells⟩ := tells
      obtain rfl : own = result := Option.some.inj (atOwn.symm.trans atIndex)
      exact ⟨step, piece, tells⟩
    · exact ih later

/-- A later record of the same run, which has the same results for the steps, tells the same of them. -/
theorem TellsSteps.later {run other : Run} {done : List Nat} {pieces : List (List Note)}
    (told : TellsSteps steps run done pieces)
    (unchanged : ∀ index ∈ done, other.results[index]? = run.results[index]?) (same : stepNote other = stepNote run)
    (canceled : run.canceled = true → other.canceled = true) : TellsSteps steps other done pieces := by
  unfold TellsSteps at told ⊢
  rw [List.forall₂_iff_zip] at told ⊢
  refine ⟨told.1, fun {index piece} member => ?_⟩
  obtain ⟨step, result, atStep, atIndex, tells⟩ := told.2 member
  rw [← unchanged index (List.of_mem_zip member).1] at atIndex
  exact ⟨step, result, atStep, atIndex, tells.later same canceled⟩

theorem Settles.stepNote_eq {state after : State} {step : Step} {index : Nat} {result : StepResult}
    (settles : Settles state step index result after) : stepNote after.run = stepNote state.run := by
  funext other
  simp only [stepNote, StepEvent.ofResult, settles.runId, settles.scenarioName]

/-- What a step tells, and the requests it sends. -/
theorem Takes.tells {done : List Nat} {state after : State} {step : Step} {index : Nat} {world final : World Unit}
    {notes : List Note} (tracked : Tracked steps done state) (new : index ∉ done) (atIndex : steps[index]? = some step)
    (takes : Takes executor options environment draws plan step index state world notes after final) :
    (∃ result, after.run.results[index]? = some result ∧ Tells after.run step result notes) ∧
      final.requests = world.requests ++ notes.filterMap Note.request? := by
  have fresh := tracked.result_eq new atIndex
  have own (result : StepResult) : (state.run.results.set index result)[index]? = some result :=
    List.getElem?_set_self (tracked.inside atIndex)
  cases takes with
  | skip =>
    rw [fresh]
    exact ⟨⟨_, own _, .skipped _⟩, by simp [State.event, Note.request?]⟩
  | keep clear executes kept =>
    rw [fresh] at executes ⊢
    obtain ⟨requests, attempts⟩ := executes.attempts
    refine ⟨⟨_, own _, .executed executes.status fun note member => ?_⟩, ?_⟩
    · obtain ⟨made, isAttempt, shown⟩ := attempts note member
      exact ⟨made, isAttempt, fun _ => shown⟩
    · rw [requests]
      exact congrArg _ (filterMap_request?_between state.run _ _ _).symm
  | discard clear executes discarded =>
    rw [fresh] at executes ⊢
    obtain ⟨requests, attempts⟩ := executes.attempts
    refine ⟨⟨_, own _, .discarded rfl rfl fun note member => ?_⟩, ?_⟩
    · obtain ⟨made, isAttempt, -⟩ := attempts note member
      exact ⟨made, isAttempt, fun unskipped => absurd rfl unskipped⟩
    · rw [requests]
      exact congrArg _ (filterMap_request?_between state.run _ _ _).symm

/-- The notes that a run has left on the way, and the requests that it has sent. -/
structure Accounts (steps : List Step) (before : List Request) (done : List Nat) (notes : List Note) (run : Run)
    (world : World Unit) : Prop where
  told : ∃ pieces, notes = pieces.flatten ∧ TellsSteps steps run done pieces
  requests : world.requests = before ++ notes.filterMap Note.request?

/-- Every step continues the account. -/
theorem Accounts.takes {before : List Request} {done : List Nat} {state after : State} {step : Step} {index : Nat}
    {world final : World Unit} {notes more : List Note} (accounts : Accounts steps before done notes state.run world)
    (tracked : Tracked steps done state) (new : index ∉ done) (atIndex : steps[index]? = some step)
    (takes : Takes executor options environment draws plan step index state world more after final) :
    Accounts steps before (done ++ [index]) (notes ++ more) after.run final := by
  obtain ⟨pieces, rfl, told⟩ := accounts.told
  obtain ⟨⟨result, atResult, tells⟩, requests⟩ := takes.tells tracked new atIndex
  obtain ⟨settled, settles⟩ := takes.settles
  have earlier : TellsSteps steps after.run done pieces :=
    told.later (fun other member => settles.getElem?_ne fun same => new (same ▸ member)) settles.stepNote_eq
      settles.canceled
  refine ⟨⟨pieces ++ [more], by simp, ?_⟩, ?_⟩
  · exact List.rel_append earlier (.cons ⟨step, result, atIndex, atResult, tells⟩ .nil)
  · rw [requests, accounts.requests, List.filterMap_append, List.append_assoc]

/-- A run that is carried out tells about its steps in the order of the plan, then its end. -/
theorem carryOut_accounts {σ : Type} {observe : σ → Note → σ} {world final : World σ} {scenario : Scenario}
    {start : Start} {run : Run} (valid : scenario.validate = .ok plan)
    (carried : carryOut options scenario start executor observe world = (some (.ok run), final)) :
    ∃ pieces, TellsSteps scenario.steps run plan.order pieces ∧
      final.seen = (pieces.flatten ++ [Note.progress (.ofRun run)]).foldl observe world.seen ∧
      final.requests = world.requests ++ pieces.flatten.filterMap Note.request? := by
  obtain ⟨state, notes, rfl, seen, -, accounts⟩ := carryOut_invariant valid
    (fun done notes state now => Accounts scenario.steps world.requests done notes state.run now)
    ⟨⟨[], rfl, .nil⟩, by simp⟩
    (fun done index rest split new step atIndex notes state world tracked accounts more after final takes =>
      accounts.takes tracked new atIndex takes)
    carried
  obtain ⟨pieces, rfl, told⟩ := accounts.told
  exact ⟨pieces, told.later (fun _ _ => rfl) rfl id, seen, accounts.requests⟩

end Runbook.Engine

/-!
A run as a chain of steps, with the states between them and the notes that each step leaves. A chain can be cut before
any of its steps; what stands in front of the cut is not touched by what comes behind it.
-/

namespace Runbook.Engine

open Interaction

variable {executor : Executor} {options : RunOptions} {environment : Environment} {draws : Template.Draws}
  {plan : Plan} {steps : List Step}

/-- A step keeps the record in order. -/
theorem Tracked.takes {done : List Nat} {step : Step} {index : Nat} {state after : State} {world final : World Unit}
    {notes : List Note} (tracked : Tracked steps done state) (new : index ∉ done) (atIndex : steps[index]? = some step)
    (takes : Takes executor options environment draws plan step index state world notes after final) :
    Tracked steps (done ++ [index]) after := by
  obtain ⟨result, settles⟩ := takes.settles
  exact tracked.settle new atIndex settles

/-- The step that is next is new, and it does not come again. -/
theorem next_of_nodup {done rest : List Nat} {index : Nat} (nodup : (done ++ index :: rest).Nodup) :
    index ∉ done ∧ index ∉ rest ∧ ((done ++ [index]) ++ rest).Nodup := by
  obtain ⟨-, restNodup, disjoint⟩ := List.nodup_append'.mp nodup
  exact ⟨fun old => disjoint old List.mem_cons_self, (List.nodup_cons.mp restNodup).1, by simpa using nodup⟩

/-- Some steps are taken one after another, each of them leaving its notes. -/
inductive Chain (executor : Executor) (options : RunOptions) (environment : Environment) (draws : Template.Draws)
    (plan : Plan) (steps : List Step) :
    List Nat → State → World Unit → List (List Note) → State → World Unit → Prop where
  | nil {state : State} {world : World Unit} :
      Chain executor options environment draws plan steps [] state world [] state world
  | cons {index : Nat} {rest : List Nat} {step : Step} {state between after : State} {world middle final : World Unit}
      {piece : List Note} {pieces : List (List Note)} (atIndex : steps[index]? = some step)
      (takes : Takes executor options environment draws plan step index state world piece between middle)
      (chain : Chain executor options environment draws plan steps rest between middle pieces after final) :
      Chain executor options environment draws plan steps (index :: rest) state world (piece :: pieces) after final

namespace Chain

variable {state after : State} {world final : World Unit} {indices front back done : List Nat}
  {pieces : List (List Note)}

/-- A chain is cut in two; the step at the cut belongs to the second part. -/
theorem split
    (chain : Chain executor options environment draws plan steps (front ++ back) state world pieces after final) :
    ∃ first second between middle, pieces = first ++ second ∧ first.length = front.length ∧
      Chain executor options environment draws plan steps front state world first between middle ∧
      Chain executor options environment draws plan steps back between middle second after final := by
  induction front generalizing state world pieces with
  | nil => exact ⟨[], pieces, state, world, rfl, rfl, .nil, chain⟩
  | cons index front ih =>
    cases chain with
    | cons atIndex takes chain =>
      obtain ⟨first, second, between, middle, rfl, length, before, behind⟩ := ih chain
      exact ⟨_ :: first, second, between, middle, rfl, by simp [length], .cons atIndex takes before, behind⟩

/-- A chain is cut around one of its steps. -/
theorem visit {index : Nat}
    (chain : Chain executor options environment draws plan steps (front ++ index :: back) state world pieces after
      final) :
    ∃ first piece second step before past between middle, pieces = first ++ piece :: second ∧
      first.length = front.length ∧
      Chain executor options environment draws plan steps front state world first before past ∧
      steps[index]? = some step ∧
      Takes executor options environment draws plan step index before past piece between middle ∧
      Chain executor options environment draws plan steps back between middle second after final := by
  obtain ⟨first, second, before, past, rfl, length, front, rest⟩ := chain.split
  cases rest with
  | cons atIndex takes rest => exact ⟨first, _, _, _, before, past, _, _, rfl, length, front, atIndex, takes, rest⟩

/-- The results of other steps are left alone. -/
theorem getElem?_of_notMem
    (chain : Chain executor options environment draws plan steps indices state world pieces after final) {other : Nat}
    (apart : other ∉ indices) : after.run.results[other]? = state.run.results[other]? := by
  induction chain with
  | nil => rfl
  | cons _ takes _ ih =>
    obtain ⟨different, later⟩ := not_or.mp (List.mem_cons.not.mp apart)
    obtain ⟨result, settles⟩ := takes.settles
    rw [ih later, settles.getElem?_ne different]

/-- A chain keeps the record in order. -/
theorem tracked (chain : Chain executor options environment draws plan steps indices state world pieces after final)
    (start : Tracked steps done state) (nodup : (done ++ indices).Nodup) : Tracked steps (done ++ indices) after := by
  induction chain generalizing done with
  | nil => simpa using start
  | cons atIndex takes _ ih =>
    obtain ⟨new, -, nodup⟩ := next_of_nodup nodup
    rw [List.append_cons]
    exact ih (start.takes new atIndex takes) nodup

/-- A chain keeps the run informed of a cancellation. -/
theorem synced (chain : Chain executor options environment draws plan steps indices state world pieces after final)
    (start : Synced done state world) : Synced (done ++ indices) after final := by
  induction chain generalizing done with
  | nil => simpa using start
  | cons _ takes _ ih => simpa using ih (start.takes takes)

/-- A chain changes neither the identifier nor the name that its run shows in notes. -/
theorem stepNote_eq
    (chain : Chain executor options environment draws plan steps indices state world pieces after final) :
    stepNote after.run = stepNote state.run := by
  induction chain with
  | nil => rfl
  | cons _ takes _ ih =>
    obtain ⟨result, settles⟩ := takes.settles
    rw [ih, settles.stepNote_eq]

/-- The requests sent along a chain are those that its notes tell. -/
theorem requests (chain : Chain executor options environment draws plan steps indices state world pieces after final)
    (start : Tracked steps done state) (nodup : (done ++ indices).Nodup) :
    final.requests = world.requests ++ pieces.flatten.filterMap Note.request? := by
  induction chain generalizing done with
  | nil => simp
  | cons atIndex takes _ ih =>
    obtain ⟨new, -, nodup⟩ := next_of_nodup nodup
    rw [ih (start.takes new atIndex takes) nodup, (takes.tells start new atIndex).2, List.flatten_cons,
      List.filterMap_append, List.append_assoc]

end Chain

/-- Steps that are taken one after another form a chain. -/
theorem runSteps_chain {indices done : List Nat} (nodup : (done ++ indices).Nodup)
    (bounded : ∀ index ∈ indices, index < steps.length) {notes : List Note} {state after : State}
    {world final : World Unit} (tracked : Tracked steps done state)
    (runs : Runs executor (runSteps options environment draws plan steps indices state) world notes after final) :
    ∃ pieces, notes = pieces.flatten ∧
      Chain executor options environment draws plan steps indices state world pieces after final := by
  induction indices generalizing done notes state world with
  | nil =>
    cases runs
    exact ⟨[], rfl, .nil⟩
  | cons index rest ih =>
    obtain ⟨new, -, nodup⟩ := next_of_nodup nodup
    obtain ⟨step, atIndex⟩ : ∃ step, steps[index]? = some step :=
      ⟨_, List.getElem?_eq_getElem (bounded index List.mem_cons_self)⟩
    unfold runSteps at runs
    simp only [atIndex, bind_eq] at runs
    obtain ⟨between, first, second, middle, rfl, left, right⟩ := runs_bind_iff.mp runs
    have takes := runStep_runs (tracked.inside atIndex) left
    obtain ⟨pieces, rfl, chain⟩ := ih nodup (fun other member => bounded other (List.mem_cons_of_mem _ member))
      (tracked.takes new atIndex takes) right
    exact ⟨first :: pieces, rfl, .cons atIndex takes chain⟩

/-- A run that is carried out is a chain over the order of its plan, and then tells its end. -/
theorem carryOut_chain {σ : Type} {observe : σ → Note → σ} {world final : World σ} {scenario : Scenario}
    {start : Start} {run : Run} (valid : scenario.validate = .ok plan)
    (carried : carryOut options scenario start executor observe world = (some (.ok run), final)) :
    ∃ state pieces, run = finished start state ∧
      final.seen = (pieces.flatten ++ [Note.progress (.ofRun run)]).foldl observe world.seen ∧
      Chain executor options start.environment start.draws plan scenario.steps plan.order
        (opening scenario (start.told world.canceled)) world.forget pieces state final.forget := by
  have checked : (start.told world.canceled).environment.check = .ok () := checked_of_carryOut valid carried
  obtain ⟨notes, runs, seen⟩ := exists_runs_of_play carried
  obtain ⟨state, stepNotes, stepRuns, ends, rfl⟩ := run_runs valid checked runs
  have sound := Scenario.sound_of_validate valid
  have nodup : ([] ++ plan.order).Nodup := sound.nodup
  obtain ⟨pieces, rfl, chain⟩ := runSteps_chain nodup
    (fun _ member => sound.mem_order_iff.mp member) (opening_tracked scenario (start.told world.canceled)) stepRuns
  cases ends
  exact ⟨state, pieces, rfl, seen, chain⟩

end Runbook.Engine

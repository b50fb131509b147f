import Runbook.Proofs.Run.Provenance

/-!
The variables of a run. Every step that is executed is executed with the scope that the scenario and the record tell:
the one the run started with, and what the steps in front of it added, in the order of the plan.
-/

namespace Runbook.Engine

open Interaction

variable {executor : Executor} {options : RunOptions} {environment : Environment} {draws : Template.Draws}
  {plan : Plan} {scenario : Scenario}

/-- A step that is taken performs with the scope that any record tells which agrees on what is in front of it. -/
theorem Takes.performs {run : Run} {start : Scope} {done : List Nat} {index : Nat} {step : Step} {state after : State}
    {world final : World Unit} {piece : List Note} (valid : scenario.validate = .ok plan)
    (tracked : Tracked scenario.steps done state) (new : index ∉ done) (atIndex : scenario.steps[index]? = some step)
    (takes : Takes executor options environment draws plan step index state world piece after final)
    (scope : state.canceled = false → state.scope.captureAll (takenOver scenario run step) =
      scopeBehind scenario run start done step)
    (stepIds : run.results.map StepResult.stepId = scenario.steps.map Step.id)
    (agree : ∀ source, plan.DependsOn source index → run.results[source]? = state.run.results[source]?)
    (same : stepNote run = stepNote state.run) :
    ∃ result, after.run.results[index]? = some result ∧
      Performs executor options environment (draws.part index) run step (scopeBehind scenario run start done step)
        world.requests result piece ∧
      result.captured = Dict.ofPairs (takenOut step result) := by
  have fresh := tracked.result_eq new atIndex
  have settled (result : StepResult) : (state.run.results.set index result)[index]? = some result :=
    List.getElem?_set_self (tracked.inside atIndex)
  -- An executed step starts with the scope of the state and what it takes over, before any cancellation.
  have runs {notes : List Note} {executed : Executed} (clear : state.skipReason? plan index = none)
      (executes : Executes executor options environment (draws.part index) step (running (state.result step index))
        (state.takeOver plan index) state.canceled world notes executed final) :
      Runs executor (executeStep options environment (draws.part index) step (running (.ofStep step))
        (scopeBehind scenario run start done step) false) world notes executed final := by
    have calm := (skipReason?_eq_none_iff.mp clear).1
    have ran := executes.runs
    rwa [fresh, takeOver_eq valid atIndex stepIds agree, scope calm, calm] at ran
  have noted (result : StepResult) : state.event result = stepNote run result := (congrFun same result).symm
  cases takes with
  | skip =>
    rw [fresh, noted]
    exact ⟨_, settled _, .skipped _, rfl⟩
  | keep clear executes kept =>
    have ran := runs clear executes
    rw [fresh] at executes
    rw [fresh, noted, noted]
    exact ⟨_, settled _, .executed rfl ran (by simp [kept]), (executes.takenOut rfl rfl).2⟩
  | discard clear executes discarded =>
    have ran := runs clear executes
    rw [fresh, noted, noted]
    exact ⟨_, settled _, .executed rfl ran (by simp [discarded]), rfl⟩

/-- In a run that is carried out, each step performs with the scope that it started with and what the steps in front of
it added to it. Its names then stand for what the edges into the step, the earlier steps or the environment say, and
what it has captured is what it took out of its own response. -/
theorem carryOut_scopes {σ : Type} (options : RunOptions) (scenario : Scenario) (plan : Plan) (start : Start)
    (executor : Executor) (observe : σ → Note → σ) (world : World σ) (valid : scenario.validate = .ok plan) :
    (start.environment.check = .ok () → executor.Answers →
      ∃ run final, carryOut options scenario start executor observe world = (some (.ok run), final)) ∧
    ∀ run final, carryOut options scenario start executor observe world = (some (.ok run), final) →
      ∃ pieces : List (List Note),
        final.seen = (pieces.flatten ++ [Note.progress (.ofRun run)]).foldl observe world.seen ∧
        ∀ front index back, plan.order = front ++ index :: back →
          ∃ step result piece, scenario.steps[index]? = some step ∧ run.results[index]? = some result ∧
            pieces[front.length]? = some piece ∧
            Performs executor options start.environment (start.draws.part index) run step
              (scopeBehind scenario run start.scope front step)
              (world.requests ++ (pieces.take front.length).flatten.filterMap Note.request?) result piece ∧
            Resolves scenario run start.scope front step (scopeBehind scenario run start.scope front step) ∧
            result.captured = Dict.ofPairs (takenOut step result) := by
  refine ⟨fun checked answers => exists_carryOut valid checked answers, fun run final carried => ?_⟩
  obtain ⟨state, pieces, rfl, seen, chain⟩ := carryOut_chain valid carried
  refine ⟨pieces, seen, fun front index back split => ?_⟩
  have sound := Scenario.sound_of_validate valid
  have nodup := sound.nodup
  have opened := opening_tracked scenario (start.told world.canceled)
  have stepIds := (chain.tracked opened nodup).stepIds
  rw [split] at chain nodup
  obtain ⟨first, piece, second, step, before, past, between, middle, rfl, length, earlier, atIndex, takes, later⟩ :=
    chain.visit
  obtain ⟨frontNodup, restNodup, disjoint⟩ := List.nodup_append'.mp nodup
  have new : index ∉ front := fun old => disjoint old List.mem_cons_self
  have tracked := earlier.tracked opened frontNodup
  have agree (other : Nat) (member : other ∈ front) :
      (finished start state).results[other]? = before.run.results[other]? :=
    Chain.getElem?_of_notMem (.cons atIndex takes later) (disjoint member)
  have scope (calm : before.canceled = false) :
      before.scope.captureAll (takenOver scenario (finished start state) step) =
        scopeBehind scenario (finished start state) start.scope front step := by
    have whole : plan.order = [] ++ (front ++ index :: back) := split
    rw [earlier.scope_eq valid whole opened calm stepIds agree]
    rfl
  have same : stepNote (finished start state) = stepNote before.run :=
    Chain.stepNote_eq (.cons atIndex takes later)
  obtain ⟨result, atResult, performs, captured⟩ := takes.performs valid tracked new atIndex scope stepIds
    (fun source depends => agree source (sound.earlier front index back split source depends)) same
  refine ⟨step, result, piece, atIndex, ?_, ?_, ?_, scopeBehind_resolves scenario _ start.scope front step, captured⟩
  · exact (later.getElem?_of_notMem (List.nodup_cons.mp restNodup).1).trans atResult
  · simp [← length]
  · rw [← length, List.take_left]
    exact earlier.requests opened frontNodup ▸ performs

/-- A step that uses a value of the first step, under a name that the second step captures too. -/
def useStep : Step := { Plan.plainStep "use" 2 with url := "http://host/\x7b\x7bkey\x7d\x7d" }

/-- Two steps that capture a header, and a step that takes the value of the first one over. -/
def relay : Scenario :=
  { id := "relay", name := "relay"
    flow := .graph
      [{ Plan.plainStep "login" 0 with captures := [⟨"token", "header.token"⟩] },
        { Plan.plainStep "other" 1 with captures := [⟨"key", "header.token"⟩] }, useStep]
      [⟨"login", "use", [("token", "key")]⟩] }

/-- The plan of the three steps. -/
def relayPlan : Plan := ⟨[0, 1, 2], [[], [], [0]], [[], [], [(0, [("token", "key")])]]⟩

/-- A server that hands out one token to the first request and another one to every later request. -/
def handsOut : Executor := fun earlier _ =>
  some { outcome := .ok { status := 200, headers := [("token", if earlier.isEmpty then "first" else "second")] } }

theorem relay_scopes :
    relay.validate = .ok relayPlan ∧ plainStart.environment.check = .ok () ∧ handsOut.Answers ∧
      ∃ run final, carryOut {} relay plainStart handsOut (fun seen _ => seen) { seen := () } = (some (.ok run), final) ∧
        (scopeBehind relay run plainStart.scope [0, 1] useStep).find? "key" = some (.string "first", .captured) ∧
        final.requests.map Request.url = ["http://host/login", "http://host/other", "http://host/first"] := by
  have valid : relay.validate = .ok relayPlan := by rfl
  have answers : handsOut.Answers := fun _ _ => rfl
  obtain ⟨carries, scopes⟩ := carryOut_scopes {} relay relayPlan plainStart handsOut (fun seen _ => seen) { seen := () }
    valid
  obtain ⟨run, final, carried⟩ := carries rfl answers
  obtain ⟨pieces, -, steps⟩ := scopes run final carried
  obtain ⟨step, _, _, atStep, _, _, _, resolves, _⟩ := steps [0, 1] 2 [] rfl
  obtain rfl : useStep = step := Option.some.inj atStep
  have captured : (carryOut {} relay plainStart handsOut (fun seen _ => seen) { seen := () }).1.map
      (fun result => result.toOption.map fun run => run.capturedBy? "login" "token") =
        some (some (some (.string "first"))) := by rfl
  have urls : (carryOut {} relay plainStart handsOut (fun seen _ => seen) { seen := () }).2.requests.map Request.url =
      ["http://host/login", "http://host/other", "http://host/first"] := by rfl
  rw [carried] at captured urls
  refine ⟨valid, rfl, answers, run, final, carried, ?_, urls⟩
  refine resolves.mapped [] ⟨"login", "use", [("token", "key")]⟩ [] "token" "key" (.string "first") rfl
    (List.pairwise_singleton _ _) List.mem_cons_self (Option.some.inj (Option.some.inj captured)) ?_ (by simp)
  intro later entry greater
  simp only [List.mem_singleton, Prod.mk.injEq, and_true] at entry
  exact absurd (entry ▸ greater) (String.lt_irrefl _)

end Runbook.Engine

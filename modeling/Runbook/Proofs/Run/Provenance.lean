import Runbook.Proofs.Plan.Inbound
import Runbook.Proofs.Run.Chain
import Runbook.Proofs.Scope.Captures

/-!
Where the variables of a step come from. The scope that a step is executed with is computed a second time, from the
scenario and the record of the run alone: what each earlier step took over along its edges and then took out of its
response, and at last what the step itself takes over.
-/

namespace Runbook

/-- The value that the step with an identifier captured under a name. -/
def Run.capturedBy? (run : Run) (stepId name : String) : Option Json :=
  (run.results.find? (·.stepId == stepId)).bind fun result => result.captured.find? name

namespace Capture

/-- The values that captures take out of a response, each under its name, in their order; a capture that does not
resolve gives none. -/
def takeAll (json : Option Json) (headers : Dict String) (captures : List Capture) : List (String × Json) :=
  captures.filterMap fun capture =>
    (Capture.take json headers capture.path).toOption.map fun value => (capture.name, value)

end Capture

namespace Engine

open Interaction

/-- The values that a mapping hands on from the step with an identifier, under their new names. -/
def handedOn (run : Run) (source : String) (mapping : Dict String) : List (String × Json) :=
  mapping.filterMap fun pair => (run.capturedBy? source pair.1).map fun value => (pair.2, value)

/-- The values that a step takes over along the edges into it. -/
def takenOver (scenario : Scenario) (run : Run) (step : Step) : List (String × Json) :=
  (scenario.edgesInto step.id).flatMap fun edge => handedOn run edge.source edge.mapping

/-- The values that a step took out of the response that it has on record. -/
def takenOut (step : Step) (result : StepResult) : List (String × Json) :=
  match result.response with
  | some response => Capture.takeAll (Json.parse? response.body) response.headers step.captures
  | none => []

/-- The values that a step adds to the scope: those it takes over and then those it takes out; a skipped step adds
none. -/
def contribution (scenario : Scenario) (run : Run) (index : Nat) : List (String × Json) :=
  match scenario.steps[index]?, run.results[index]? with
  | some step, some result =>
    if result.status = .skipped then [] else takenOver scenario run step ++ takenOut step result
  | _, _ => []

/-- The scope that a step is to be executed with, behind the steps in front of it. -/
def scopeBehind (scenario : Scenario) (run : Run) (start : Scope) (front : List Nat) (step : Step) : Scope :=
  (front.foldl (fun scope index => scope.captureAll (contribution scenario run index)) start).captureAll
    (takenOver scenario run step)

variable {executor : Executor} {options : RunOptions} {environment : Environment} {draws : Template.Draws}
  {plan : Plan} {steps : List Step} {scenario : Scenario}

/-- The values of a response are added to the scope and to the captured values alike. -/
theorem takeCaptures_eq (reply : Reply) (json : Option Json) (captures : List Capture) (scope : Scope) :
    takeCaptures reply json captures scope =
      (scope.captureAll (Capture.takeAll json reply.headers captures),
        Dict.ofPairs (Capture.takeAll json reply.headers captures)) := by
  simp only [takeCaptures, Scope.captureAll, Dict.ofPairs]
  generalize ([] : Dict Json) = captured
  induction captures generalizing scope captured with
  | nil => rfl
  | cons capture rest ih =>
    rw [List.foldl_cons, ih]
    cases taken : Capture.take json reply.headers capture.path <;>
      simp [Capture.takeAll, taken, Except.toOption]

/-- A step that is executed adds what it takes out of its response to the scope, and has just that captured. -/
theorem Executes.takenOut {step : Step} {pending : StepResult} {scope : Scope} {canceled : Bool}
    {world final : World Unit} {notes : List Note} {executed : Executed}
    (executes : Executes executor options environment draws step pending scope canceled world notes executed final)
    (fresh : pending.response = none) (bare : pending.captured = []) :
    executed.scope = scope.captureAll (takenOut step executed.result) ∧
      executed.result.captured = Dict.ofPairs (takenOut step executed.result) := by
  cases executes with
  | unsendable => simp [Engine.takenOut, fresh, bare, Dict.ofPairs]
  | answered =>
    simp only [judge, takeCaptures_eq, Engine.takenOut]
    exact ⟨rfl, rfl⟩
  | unanswered => simp [Engine.takenOut, Engine.unanswered, fresh, bare, Dict.ofPairs]

/-- What a step does when it is executed is a run of the interaction that executes it. -/
theorem Executes.runs {step : Step} {pending : StepResult} {scope : Scope} {canceled : Bool}
    {world final : World Unit} {notes : List Note} {executed : Executed}
    (executes : Executes executor options environment draws step pending scope canceled world notes executed final) :
    Runs executor (executeStep options environment draws step pending scope canceled) world notes executed final := by
  unfold executeStep
  cases executes with
  | unsendable fault =>
    rw [fault]
    exact .done
  | answered formed sends outcome =>
    simp only [formed, bind_eq]
    refine runs_bind_iff.mpr ⟨_, notes, [], final, (List.append_nil notes).symm, sends, ?_⟩
    simp only [outcome]
    exact .done
  | unanswered formed sends outcome =>
    simp only [formed, bind_eq]
    refine runs_bind_iff.mpr ⟨_, notes, [], final, (List.append_nil notes).symm, sends, ?_⟩
    simp only [outcome]
    exact .done

section

variable {run : Run}

/-- The result of a step is found by the identifier of the step. -/
theorem find?_stepId (distinct : (steps.map Step.id).Nodup)
    (stepIds : run.results.map StepResult.stepId = steps.map Step.id) {index : Nat} {id : String}
    (named : Plan.HasId steps index id) : run.results.find? (·.stepId == id) = run.results[index]? := by
  have inside : index < run.results.length := by
    have same := congrArg List.length stepIds
    simp only [List.length_map] at same
    exact same ▸ named.lt
  have idAt (place : Nat) (within : place < run.results.length) :
      (steps.map Step.id)[place]? = some run.results[place].stepId := by
    rw [← stepIds, List.getElem?_map, List.getElem?_eq_getElem within, Option.map_some]
  have own : run.results[index].stepId = id := by
    have place := idAt index inside
    rw [List.getElem?_map, named] at place
    exact (Option.some.inj place).symm
  rw [List.getElem?_eq_getElem inside, List.find?_eq_some_iff_getElem]
  refine ⟨by simp [own], index, inside, rfl, fun other earlier => ?_⟩
  have apart : run.results[other].stepId ≠ id := by
    intro same
    have again : (steps.map Step.id)[other]? = (steps.map Step.id)[index]? := by
      rw [idAt other (Nat.lt_trans earlier inside), idAt index inside, same, own]
    have bound : other < (steps.map Step.id).length := by
      rw [List.length_map]
      exact Nat.lt_trans earlier named.lt
    exact Nat.ne_of_lt earlier ((List.getElem?_inj bound distinct).mp again)
  simpa using apart

/-- What a step takes over from a state is told by the edges into the step and any record that agrees with the state
on the steps that it depends on. -/
theorem takeOver_eq (valid : scenario.validate = .ok plan) {state : State} {index : Nat} {step : Step}
    (atIndex : scenario.steps[index]? = some step)
    (stepIds : run.results.map StepResult.stepId = scenario.steps.map Step.id)
    (agree : ∀ source, plan.DependsOn source index → run.results[source]? = state.run.results[source]?) :
    state.takeOver plan index = state.scope.captureAll (takenOver scenario run step) := by
  have distinct := (Scenario.of_validate valid).2.1
  have edges : takenOver scenario run step = (plan.inbound.getD index []).flatMap fun entry =>
      entry.2.filterMap fun pair => (((run.results[entry.1]?.map StepResult.captured).getD []).find? pair.1).map
        fun value => (pair.2, value) := by
    refine (Scenario.flatMap_inbound valid atIndex (fun source mapping => mapping.filterMap fun pair =>
      (((run.results[source]?.map StepResult.captured).getD []).find? pair.1).map fun value => (pair.2, value))
      (fun edge => handedOn run edge.source edge.mapping) (fun _ => rfl) fun edge source named => ?_).symm
    simp only [handedOn, Run.capturedBy?, find?_stepId distinct stepIds named]
    cases run.results[source]? <;> rfl
  rw [edges, Scope.captureAll, List.foldl_flatMap, State.takeOver]
  refine List.foldl_ext _ _ _ fun scope entry member => ?_
  rw [List.foldl_filterMap, agree entry.1 (Scenario.dependsOn_of_mem_inbound valid member)]
  refine List.foldl_ext _ _ _ fun scope pair _ => ?_
  obtain ⟨held, name⟩ := pair
  cases found : ((state.run.results[entry.1]?.map StepResult.captured).getD []).find? held <;> simp only [found] <;> rfl

end

/-- A run that is canceled stays so. -/
theorem Takes.canceled {step : Step} {index : Nat} {state after : State} {world final : World Unit} {notes : List Note}
    (takes : Takes executor options environment draws plan step index state world notes after final)
    (canceled : state.canceled = true) : after.canceled = true := by
  cases takes with
  | skip => exact canceled
  | keep clear =>
    rw [(skipReason?_eq_none_iff.mp clear).1] at canceled
    cases canceled
  | discard => rfl

theorem Chain.canceled {indices : List Nat} {state after : State} {world final : World Unit}
    {pieces : List (List Note)}
    (chain : Chain executor options environment draws plan steps indices state world pieces after final)
    (canceled : state.canceled = true) : after.canceled = true := by
  induction chain with
  | nil => exact canceled
  | cons _ takes _ ih => exact ih (takes.canceled canceled)

/-- In a run that goes on, a step adds its contribution to the scope. The contribution is told by any record that agrees
on the step and on those that it depends on. -/
theorem Takes.scope_eq {run : Run} {done : List Nat} {index : Nat} {step : Step} {state after : State}
    {world final : World Unit} {notes : List Note} (valid : scenario.validate = .ok plan)
    (tracked : Tracked scenario.steps done state) (new : index ∉ done) (atIndex : scenario.steps[index]? = some step)
    (takes : Takes executor options environment draws plan step index state world notes after final)
    (goesOn : after.canceled = false) (stepIds : run.results.map StepResult.stepId = scenario.steps.map Step.id)
    (own : run.results[index]? = after.run.results[index]?)
    (agree : ∀ source, plan.DependsOn source index → run.results[source]? = state.run.results[source]?) :
    after.scope = state.scope.captureAll (contribution scenario run index) := by
  have fresh := tracked.result_eq new atIndex
  have settled (result : StepResult) : (state.run.results.set index result)[index]? = some result :=
    List.getElem?_set_self (tracked.inside atIndex)
  cases takes with
  | skip =>
    rw [settled] at own
    simp only [contribution, atIndex, own, skipped, if_true, Scope.captureAll_nil]
  | keep clear executes kept =>
    rw [settled] at own
    rw [fresh] at executes
    rw [(executes.takenOut rfl rfl).1, takeOver_eq valid atIndex stepIds agree, ← Scope.captureAll_append]
    simp only [contribution, atIndex, own, executes.ne_skipped, if_false]
  | discard => cases goesOn

/-- In a run that goes on, the steps in front add their contributions to the scope, one after another. -/
theorem Chain.scope_eq {run : Run} {done front back : List Nat} {state after : State} {world final : World Unit}
    {pieces : List (List Note)} (valid : scenario.validate = .ok plan) (split : plan.order = done ++ (front ++ back))
    (chain : Chain executor options environment draws plan scenario.steps front state world pieces after final)
    (tracked : Tracked scenario.steps done state) (goesOn : after.canceled = false)
    (stepIds : run.results.map StepResult.stepId = scenario.steps.map Step.id)
    (agree : ∀ index ∈ done ++ front, run.results[index]? = after.run.results[index]?) :
    after.scope = front.foldl (fun scope index => scope.captureAll (contribution scenario run index)) state.scope := by
  have sound := Scenario.sound_of_validate valid
  have nodup := sound.nodup
  induction chain generalizing done with
  | nil => rfl
  | @cons index rest step state between after _ _ _ _ _ atIndex takes chain ih =>
    have again : plan.order = (done ++ [index]) ++ (rest ++ back) := by simp [split]
    have parts : (done ++ index :: (rest ++ back)).Nodup := by rwa [split] at nodup
    obtain ⟨new, -, parts⟩ := next_of_nodup parts
    have apart {other : Nat} (early : other ∈ done ++ [index]) : other ∉ rest := fun later =>
      (List.nodup_append'.mp parts).2.2 early (List.mem_append_left back later)
    have calm : between.canceled = false :=
      Bool.eq_false_iff.mpr fun canceled => by simp [chain.canceled canceled] at goesOn
    obtain ⟨result, settles⟩ := takes.settles
    have own : run.results[index]? = between.run.results[index]? := by
      rw [agree index (by simp), chain.getElem?_of_notMem (apart (by simp))]
    have sources (source : Nat) (depends : plan.DependsOn source index) :
        run.results[source]? = state.run.results[source]? := by
      have early := sound.earlier done index (rest ++ back) split source depends
      rw [agree source (List.mem_append_left _ early), chain.getElem?_of_notMem (apart (List.mem_append_left _ early)),
        settles.getElem?_ne fun same => new (same ▸ early)]
    rw [ih again (tracked.takes new atIndex takes) goesOn (by simpa using agree),
      takes.scope_eq valid tracked new atIndex calm stepIds own sources, List.foldl_cons]

/-- How a step came to its result and its notes, given the scope for it and the requests that were sent before it: it
was skipped, or it was executed with that scope. -/
inductive Performs (executor : Executor) (options : RunOptions) (environment : Environment) (draws : Template.Draws)
    (run : Run) (step : Step) (scope : Scope) (earlier : List Request) : StepResult → List Note → Prop where
  | skipped (reason : String) :
      Performs executor options environment draws run step scope earlier (skipped (.ofStep step) reason)
        [stepNote run (skipped (.ofStep step) reason)]
  | executed {before after : World Unit} {attempts : List Note} {executed : Executed} {result : StepResult}
      (requests : before.requests = earlier)
      (runs : Runs executor (executeStep options environment draws step (running (.ofStep step)) scope false) before
        attempts executed after)
      (outcome : result = if executed.canceled then skipped (.ofStep step) "run canceled while request was in flight"
        else executed.result) :
      Performs executor options environment draws run step scope earlier result
        (stepNote run (running (.ofStep step)) :: (attempts ++ [stepNote run result]))

/-- What the names of a scope stand for, behind the steps in front of a step. -/
structure Resolves (scenario : Scenario) (run : Run) (start : Scope) (front : List Nat) (step : Step) (scope : Scope) :
    Prop where
  /-- A name that edges into the step map to has the value of the last entry, by edges and then by keys, whose source
  captured its key. -/
  mapped : ∀ before edge after held name value, scenario.edgesInto step.id = before ++ edge :: after →
    edge.mapping.Sorted → (held, name) ∈ edge.mapping → run.capturedBy? edge.source held = some value →
    (∀ later, (later, name) ∈ edge.mapping → held < later → run.capturedBy? edge.source later = none) →
    (∀ other ∈ after, ∀ later, (later, name) ∈ other.mapping → run.capturedBy? other.source later = none) →
    scope.find? name = some (value, .captured)
  /-- A name that nothing binds on the way has what the run started with: a variable of the environment, or nothing. -/
  unbound : ∀ name, (∀ index ∈ front, name ∉ (contribution scenario run index).map Prod.fst) →
    name ∉ (takenOver scenario run step).map Prod.fst → scope.find? name = start.find? name ∧
      (start.captured.find? name = none →
        scope.find? name = (start.environment.find? name).map fun text => (.string text, .environment))

/-- A mapping gives a name a value when it has an entry for the name whose key was captured. -/
theorem mem_handedOn {run : Run} {source name : String} {mapping : Dict String} :
    name ∈ (handedOn run source mapping).map Prod.fst ↔
      ∃ held value, (held, name) ∈ mapping ∧ run.capturedBy? source held = some value := by
  simp only [handedOn, List.mem_map, List.mem_filterMap, Option.map_eq_some_iff]
  constructor
  · rintro ⟨_, ⟨⟨held, _⟩, member, value, captured, rfl⟩, rfl⟩
    exact ⟨held, value, member, captured⟩
  · rintro ⟨held, value, member, captured⟩
    exact ⟨(name, value), ⟨(held, name), member, value, captured, rfl⟩, rfl⟩

/-- Of the entries of a mapping for one name, the one with the greatest captured key counts. -/
theorem last?_handedOn {run : Run} {source held name : String} {mapping : Dict String} {value : Json}
    (sorted : mapping.Sorted) (member : (held, name) ∈ mapping) (captured : run.capturedBy? source held = some value)
    (last : ∀ later, (later, name) ∈ mapping → held < later → run.capturedBy? source later = none) :
    Dict.last? name (handedOn run source mapping) = some value := by
  obtain ⟨lower, upper, rfl⟩ := List.append_of_mem member
  have greater := (List.pairwise_cons.mp (List.pairwise_append.mp sorted).2.1).1
  have silent : Dict.last? name (handedOn run source upper) = none := by
    rw [Dict.last?_eq_none_iff, mem_handedOn]
    rintro ⟨later, other, inside, found⟩
    rw [last later (by simp [inside]) (greater (later, name) inside)] at found
    cases found
  have parts : handedOn run source (lower ++ (held, name) :: upper) =
      (handedOn run source lower ++ [(name, value)]) ++ handedOn run source upper := by
    simp [handedOn, captured]
  rw [parts, Dict.last?_append, silent, Dict.last?_concat]
  simp

/-- What the names of the scope behind some steps stand for. -/
theorem scopeBehind_resolves (scenario : Scenario) (run : Run) (start : Scope) (front : List Nat) (step : Step) :
    Resolves scenario run start front step (scopeBehind scenario run start front step) where
  mapped before edge after held name value edges sorted member captured lastKey lastEdge := by
    have silent : Dict.last? name (after.flatMap fun edge => handedOn run edge.source edge.mapping) = none := by
      rw [Dict.last?_eq_none_iff, List.map_flatMap, List.mem_flatMap]
      rintro ⟨other, inside, handed⟩
      obtain ⟨later, found, listed, some⟩ := mem_handedOn.mp handed
      rw [lastEdge other inside later listed] at some
      cases some
    have taken : Dict.last? name (takenOver scenario run step) = some value := by
      rw [takenOver, edges, List.flatMap_append, List.flatMap_cons, Dict.last?_append, Dict.last?_append, silent,
        last?_handedOn sorted member captured lastKey]
      rfl
    rw [scopeBehind, Scope.find?_captureAll, taken]
    rfl
  unbound name early own := by
    have none (pairs : List (String × Json)) (absent : name ∉ pairs.map Prod.fst) (scope : Scope) :
        (scope.captureAll pairs).find? name = scope.find? name := by
      rw [Scope.find?_captureAll, Dict.last?_eq_none_iff.mpr absent]
      rfl
    have initial : (scopeBehind scenario run start front step).find? name = start.find? name := by
      rw [scopeBehind, none _ own, ← Scope.captureAll_flatMap]
      refine none _ ?_ start
      simpa only [List.map_flatMap, List.mem_flatMap, not_exists, not_and] using early
    exact ⟨initial, fun uncaptured => by rw [initial, Scope.find?, uncaptured]⟩

end Engine
end Runbook

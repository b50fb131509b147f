import Runbook.Proofs.Observer.Course

/-!
The results of scenarios that are carried out together, and the exit of such a run. There is one result for every
scenario, and whoever takes the scenarios one at a time, in whatever order, leaves each with the result of its own run.
-/

namespace Runbook

open Machine

variable {α : Type}

/-- Those who carry out computations take them one at a time, each of them once, in some order. -/
def Crew.TakesTurns [Crew (StateM Machine)] : Prop :=
  ∀ {α : Type} (count : Nat) (computations : List (StateM Machine α)) (machine : Machine),
    ∃ order : List (StateM Machine α), order.Perm computations ∧
      machine.run (Crew.together count computations) = machine.run (order.mapM id)

theorem Crew.takesTurns_sequential : Crew.TakesTurns := fun _ computations _ => ⟨computations, .refl _, rfl⟩

theorem exists_mem_of_forall₂ {α β : Type} {related : α → β → Prop} {firsts : List α} {seconds : List β}
    (each : List.Forall₂ related firsts seconds) : ∀ second ∈ seconds, ∃ first ∈ firsts, related first second := by
  induction each with
  | nil => exact fun _ member => nomatch member
  | cons head _ ih =>
    intro second member
    rcases List.mem_cons.mp member with rfl | later
    · exact ⟨_, List.mem_cons_self, head⟩
    · obtain ⟨first, inside, joined⟩ := ih second later
      exact ⟨first, List.mem_cons_of_mem _ inside, joined⟩

namespace Machine

/-- A value is what a computation comes to on some machine. -/
def ComesTo (computation : StateM Machine α) (value : α) : Prop :=
  ∃ machine : Machine, (machine.run computation).1 = value

/-- What a list of computations comes to is what each of them comes to, on the machine that those before it leave. -/
theorem forall₂_comesTo (computations : List (StateM Machine α)) (machine : Machine) :
    List.Forall₂ ComesTo computations (machine.run (computations.mapM id)).1 := by
  induction computations generalizing machine with
  | nil => exact .nil
  | cons computation rest ih =>
    rw [List.mapM_cons]
    exact .cons ⟨machine, rfl⟩ (ih (machine.run computation).2)

end Machine

namespace Command

variable {count place : Nat} {ended : List (Nat × Except RunError Run)}

/-- There is a result for every scenario. -/
theorem length_placed (count : Nat) (ended : List (Nat × Except RunError Run)) :
    (placed count ended).length = count := by
  unfold placed
  rw [List.length_map, List.length_range]

/-- The result at a place is one that ended there, where there is any. -/
theorem exists_mem_of_placed (bound : place < count) (any : ∃ pair ∈ ended, pair.1 = place) :
    ∃ result, (place, result) ∈ ended ∧ (placed count ended)[place]? = some result := by
  obtain ⟨pair, member, rfl⟩ := any
  have found : (ended.reverse.lookup pair.1).isSome = true :=
    List.lookup_isSome_iff.mpr ⟨pair, List.mem_reverse.mpr member, beq_self_eq_true pair.1⟩
  obtain ⟨result, looked⟩ := Option.isSome_iff_exists.mp found
  refine ⟨result, ?_, ?_⟩
  · obtain ⟨front, back, cut, -⟩ := List.lookup_eq_some_iff.mp looked
    rw [← List.mem_reverse, cut]
    exact List.mem_append_right front List.mem_cons_self
  · rw [placed, List.getElem?_map, List.getElem?_range bound, Option.map_some, looked, Option.getD_some]

section

variable [Crew (StateM Machine)] (observe : Note → StateM Machine Unit) (options : RunOptions)
  (environment : Environment) (workers : Nat) (scenarios : List Scenario) (machine : Machine)

theorem length_runScenarios :
    (machine.run (runScenarios observe options environment workers scenarios)).1.length = scenarios.length :=
  length_placed scenarios.length _

/-- Each scenario has the result of its own run, whatever goes before it. -/
theorem forall₂_runScenarios (turns : Crew.TakesTurns) :
    List.Forall₂ (fun scenario => ComesTo (runScenario observe options environment scenario)) scenarios
      (machine.run (runScenarios observe options environment workers scenarios)).1 := by
  let tagged (scenario : Scenario × Nat) : StateM Machine (Nat × Except RunError Run) := do
    return (scenario.2, ← runScenario observe options environment scenario.1)
  obtain ⟨order, perm, ran⟩ := turns (Batch.workerCount workers) (scenarios.zipIdx.map tagged) machine
  have each := forall₂_comesTo order machine
  rcases ending : machine.run (order.mapM id) with ⟨ended, after⟩
  rw [ending] at each
  have whole : (machine.run (runScenarios observe options environment workers scenarios)).1 =
      placed scenarios.length ended := by
    unfold runScenarios
    rw [run_bind (ran.trans ending)]
    rfl
  have own : ∀ pair ∈ ended, ∃ scenario, scenarios[pair.1]? = some scenario ∧
      ComesTo (runScenario observe options environment scenario) pair.2 := by
    intro pair member
    obtain ⟨computation, inside, before, came⟩ := exists_mem_of_forall₂ each pair member
    obtain ⟨scenario, listed, rfl⟩ := List.mem_map.mp (perm.mem_iff.mp inside)
    cases came
    exact ⟨scenario.1, List.mem_zipIdx_iff_getElem?.mp listed, before, rfl⟩
  have any : ∀ place, place < scenarios.length → ∃ pair ∈ ended, pair.1 = place := by
    intro place bound
    have listed : (scenarios[place], place) ∈ scenarios.zipIdx :=
      List.mk_mem_zipIdx_iff_getElem?.mpr (List.getElem?_eq_getElem bound)
    have inside := perm.mem_iff.mpr (List.mem_map_of_mem (f := tagged) listed)
    obtain ⟨pair, member, before, came⟩ := exists_mem_of_forall₂ (List.Forall₂.flip each) _ inside
    cases came
    exact ⟨_, member, rfl⟩
  rw [whole, List.forall₂_iff_get]
  refine ⟨(length_placed scenarios.length ended).symm, fun place bound inside => ?_⟩
  obtain ⟨result, member, found⟩ := exists_mem_of_placed bound (any place bound)
  obtain ⟨scenario, listed, came⟩ := own (place, result) member
  obtain ⟨_, rfl⟩ := List.getElem?_eq_some_iff.mp listed
  obtain ⟨_, rfl⟩ := List.getElem?_eq_some_iff.mp found
  exact came

end

end Command

end Runbook

/-!
How a run of scenarios ends. The exit depends on the results of the scenarios alone, and each of them counts: it is a
success exactly when scenarios are found, an environment is selected, and every scenario was run and its run passed. The
history, the progress that is shown, report files and the console have no say in it.
-/

namespace Runbook

namespace Machine

variable {α β : Type} {result : β}

/-- A computation gives a result on every machine. -/
def Gives (result : β) (computation : StateM Machine β) : Prop :=
  ∀ machine : Machine, (machine.run computation).1 = result

namespace Gives

theorem pure (result : β) : Gives result (Pure.pure result) := fun _ => rfl

/-- What is done first does not matter where the rest gives one result in any case. -/
theorem bind {next : α → StateM Machine β} (first : StateM Machine α) (rest : ∀ value, Gives result (next value)) :
    Gives result (first >>= next) := fun machine => rest (machine.run first).1 (machine.run first).2

end Gives

end Machine

namespace Command

open Machine

/-- A command line asks on a machine for the scenarios at a pathname to be run, with a configuration that is found
sound. -/
def Asks (machine : Machine) (words : List String) (path : String) (grouping : Grouping) (execution : Execution)
    (workspace : Workspace) : Prop :=
  ∃ config, Invocation.ofWords (machine.run (settings settingNames)).1.find? words =
      .ok { config, task := .run path grouping execution } ∧
    (machine.run (Workspace.load config true)).1 = .ok workspace

/-- A result tells of a run that passed. -/
def TellsPassed (result : Except RunError Run) : Prop := ∃ run, result = .ok run ∧ run.status = .passed

theorem allPassed_iff (results : List (Except RunError Run)) :
    allPassed results = true ↔ ∀ result ∈ results, TellsPassed result := by
  unfold allPassed
  rw [List.all_eq_true]
  refine forall₂_congr fun result _ => ?_
  cases result with
  | error error => exact ⟨nofun, nofun⟩
  | ok run =>
    constructor
    · intro passed
      exact ⟨run, rfl, eq_of_beq passed⟩
    · rintro ⟨_, ⟨⟩, passed⟩
      exact beq_iff_eq.mpr passed

section

variable [Crew (StateM Machine)]

/-- The results of the scenarios that a command runs: the history is opened for them, and they are followed. -/
def runAll (workspace : Workspace) (grouping : Grouping) (execution : Execution) (scenarios : List Scenario)
    (environment : Environment) : StateM Machine (List (Except RunError Run)) := do
  let watch ← watchOf workspace execution
  runScenarios watch.observe (optionsOf workspace execution grouping.failFast) environment
    (grouping.workers workspace) scenarios

variable (workspace : Workspace) (grouping : Grouping) (execution : Execution) (machine : Machine)

/-- What is saved, delivered and told behind the runs has no influence on whether all of them passed. -/
theorem conductIn_eq (scenarios : List Scenario) (environment : Environment) :
    (machine.run (conductIn workspace execution (grouping.workers workspace) grouping.failFast scenarios
      environment)).1 = allPassed (machine.run (runAll workspace grouping execution scenarios environment)).1 := by
  rcases opening : machine.run (watchOf workspace execution) with ⟨watch, watched⟩
  have started : watched.run Host.now = (watched.clock, watched) := rfl
  rcases running : watched.run (runScenarios watch.observe (optionsOf workspace execution grouping.failFast) environment
    (grouping.workers workspace) scenarios) with ⟨results, after⟩
  unfold conductIn runAll
  rw [run_bind opening, run_bind opening, run_bind started, run_bind running, running]
  refine (?_ : Gives (allPassed results) _) after
  apply Gives.bind
  intro finish
  apply Gives.bind
  intro shown
  apply Gives.bind
  intro saved
  apply Gives.bind
  intro delivered
  apply Gives.bind
  intro told
  exact .pure _

/-- There is a result for every scenario that a command runs. -/
theorem length_runAll (scenarios : List Scenario) (environment : Environment) :
    (machine.run (runAll workspace grouping execution scenarios environment)).1.length = scenarios.length := by
  rcases opening : machine.run (watchOf workspace execution) with ⟨watch, watched⟩
  unfold runAll
  rw [run_bind opening]
  exact length_runScenarios _ _ _ _ scenarios watched

/-- Where scenarios are taken in turns, the results are those of their own runs. -/
theorem forall₂_runAll (turns : Crew.TakesTurns) (scenarios : List Scenario) (environment : Environment) :
    ∃ watch : Watch, List.Forall₂
      (fun scenario => ComesTo (runScenario watch.observe (optionsOf workspace execution grouping.failFast)
        environment scenario))
      scenarios (machine.run (runAll workspace grouping execution scenarios environment)).1 := by
  rcases opening : machine.run (watchOf workspace execution) with ⟨watch, watched⟩
  unfold runAll
  rw [run_bind opening]
  exact ⟨watch, forall₂_runScenarios _ _ _ _ scenarios watched turns⟩

/-- All scenarios pass where each has a result that tells of a run that passed. -/
theorem allPassed_runAll_iff (scenarios : List Scenario) (environment : Environment) :
    allPassed (machine.run (runAll workspace grouping execution scenarios environment)).1 = true ↔
      List.Forall₂ (fun _ => TellsPassed) scenarios
        (machine.run (runAll workspace grouping execution scenarios environment)).1 := by
  have lengths := length_runAll workspace grouping execution machine scenarios environment
  generalize (machine.run (runAll workspace grouping execution scenarios environment)).1 = results at lengths ⊢
  rw [allPassed_iff, List.forall₂_iff_get]
  constructor
  · intro passed
    exact ⟨lengths.symm, fun index _ bound => passed _ (List.get_mem _ ⟨index, bound⟩)⟩
  · rintro ⟨-, passed⟩ result member
    obtain ⟨⟨index, bound⟩, rfl⟩ := List.get_of_mem member
    exact passed index (lengths ▸ bound) bound

/-- Scenarios are conducted to a verdict exactly when an environment is selected. -/
theorem conduct_eq_ok_iff (scenarios : List Scenario) (isGood : Bool) :
    (machine.run (conduct workspace execution (grouping.workers workspace) grouping.failFast scenarios)).1 =
        .ok isGood ↔
      ∃ environment, workspace.environment execution.environment = .ok environment ∧
        allPassed (machine.run (runAll workspace grouping execution scenarios environment)).1 = isGood := by
  unfold conduct
  cases workspace.environment execution.environment with
  | error error =>
    constructor
    · rintro ⟨⟩
    · rintro ⟨_, ⟨⟩, _⟩
  | ok environment =>
    have verdict := conductIn_eq workspace grouping execution machine scenarios environment
    rcases conducted : machine.run (conductIn workspace execution (grouping.workers workspace) grouping.failFast
      scenarios environment) with ⟨passed, after⟩
    rw [conducted] at verdict
    dsimp only
    rw [run_bind conducted]
    constructor
    · rintro ⟨⟩
      exact ⟨environment, rfl, verdict.symm⟩
    · rintro ⟨_, ⟨⟩, rfl⟩
      exact congrArg Except.ok verdict

/-- A command runs scenarios to a verdict exactly when it finds some and an environment is selected. -/
theorem run_eq_ok_iff (path : String) (isGood : Bool) :
    (machine.run (run workspace path grouping execution)).1 = .ok isGood ↔
      ∃ scenarios environment, (machine.run (Scenario.load path)).1 = .ok scenarios ∧ scenarios ≠ [] ∧
        workspace.environment execution.environment = .ok environment ∧
        allPassed (machine.run (runAll workspace grouping execution scenarios environment)).1 = isGood := by
  unfold run
  rw [(Reads.isThere path).run_bind]
  cases there : (machine.run (Files.isThere path)).1 with
  | false =>
    constructor
    · rintro ⟨⟩
    · rintro ⟨scenarios, _, loaded, -⟩
      rw [Scenario.isThere_of_load loaded] at there
      cases there
  | true =>
    rw [Bool.not_true, if_neg Bool.false_ne_true, (Scenario.reads_load path).run_bind]
    cases (machine.run (Scenario.load path)).1 with
    | error failure =>
      constructor
      · rintro ⟨⟩
      · rintro ⟨_, _, ⟨⟩, -⟩
    | ok scenarios =>
      cases scenarios with
      | nil =>
        constructor
        · rintro ⟨⟩
        · rintro ⟨_, _, ⟨⟩, found, -⟩
          exact absurd rfl found
      | cons scenario rest =>
        apply (conduct_eq_ok_iff workspace grouping execution machine (scenario :: rest) isGood).trans
        constructor
        · rintro ⟨environment, selected, passed⟩
          exact ⟨_, environment, rfl, List.cons_ne_nil _ _, selected, passed⟩
        · rintro ⟨_, environment, ⟨⟩, -, selected, passed⟩
          exact ⟨environment, selected, passed⟩

/-- The results of the scenarios that a command runs are those on any machine at the same point of its course, whoever
follows the runs there. -/
theorem runAll_eq (blind : Crew.IsBlind) {observe : Note → StateM Machine Unit}
    (aside : ∀ note, Leaves SameCourse (observe note)) {twin : Machine} (same : machine.SameCourse twin)
    (scenarios : List Scenario) (environment : Environment) :
    (machine.run (runAll workspace grouping execution scenarios environment)).1 =
      (twin.run (runScenarios observe (optionsOf workspace execution grouping.failFast) environment
        (grouping.workers workspace) scenarios)).1 := by
  have left : (machine.run (watchOf workspace execution)).2.SameCourse machine :=
    SameCourse.likeness.watchOf workspace execution machine
  rcases opening : machine.run (watchOf workspace execution) with ⟨watch, watched⟩
  rw [opening] at left
  unfold runAll
  rw [run_bind opening]
  have alike := likewise_runScenarios blind (SameCourse.likeness.observe watch) aside
    (optionsOf workspace execution grouping.failFast) environment (grouping.workers workspace) scenarios
  exact (alike (SameCourse.likeness.trans left same)).1

/-- The results are those of any command on such a machine that sets the same timeout. -/
theorem runAll_congr (blind : Crew.IsBlind) {twin : Machine} (same : machine.SameCourse twin) {other : Execution}
    (timeout : other.timeout = execution.timeout) (scenarios : List Scenario) (environment : Environment) :
    (twin.run (runAll workspace grouping other scenarios environment)).1 =
      (machine.run (runAll workspace grouping execution scenarios environment)).1 := by
  have nobody (note : Note) : Leaves SameCourse ((fun _ => pure ()) note) := SameCourse.likeness.pure ()
  have options : optionsOf workspace other grouping.failFast = optionsOf workspace execution grouping.failFast := by
    unfold optionsOf
    rw [timeout]
  rw [runAll_eq workspace grouping execution machine blind nobody same,
    runAll_eq workspace grouping other twin blind nobody (SameCourse.likeness.refl twin), options]

section

variable {words : List String} {path : String} {workspace : Workspace} {grouping : Grouping}
  {execution : Execution} {machine : Machine}

/-- A command that is to run scenarios succeeds when it runs them and all of them pass, and fails otherwise. -/
theorem status_perform (asks : Asks machine words path grouping execution workspace) :
    let status := (machine.run (perform words)).1.status
    let result := (machine.run (run workspace path grouping execution)).1
    (status = 0 ∧ result = .ok true) ∨ (status = 1 ∧ result ≠ .ok true) := by
  intro status result
  obtain ⟨config, asked, configured⟩ := asks
  have performed : machine.run (Invocation.perform { config, task := .run path grouping execution }) =
      machine.run (run workspace path grouping execution) := by
    unfold Invocation.perform
    rw [(Workspace.reads_load config _).run_bind]
    dsimp only [Task.checksActive]
    rw [configured]
    rfl
  rcases ended : machine.run (run workspace path grouping execution) with ⟨outcome, after⟩
  have verdict : result = outcome := congrArg Prod.fst ended
  have exit : status = (after.run (tellResult outcome)).1.status := by
    show (machine.run (perform words)).1.status = _
    unfold perform
    rw [(reads_settings settingNames).run_bind, asked]
    dsimp only
    rw [run_bind (performed.trans ended)]
  rw [verdict, exit]
  rcases outcome with failure | _ | _
  · exact .inr ⟨rfl, nofun⟩
  · exact .inr ⟨rfl, nofun⟩
  · exact .inl ⟨rfl, rfl⟩

theorem status_eq_zero_or_one (asks : Asks machine words path grouping execution workspace) :
    (machine.run (perform words)).1.status = 0 ∨ (machine.run (perform words)).1.status = 1 := by
  obtain ⟨success, -⟩ | ⟨failure, -⟩ := status_perform asks
  · exact .inl success
  · exact .inr failure

/-- The exit status is zero exactly when scenarios are found, an environment is selected, and each of them passes. -/
theorem status_eq_zero_iff (asks : Asks machine words path grouping execution workspace) :
    (machine.run (perform words)).1.status = 0 ↔
      ∃ scenarios environment, (machine.run (Scenario.load path)).1 = .ok scenarios ∧ scenarios ≠ [] ∧
        workspace.environment execution.environment = .ok environment ∧
        List.Forall₂ (fun _ => TellsPassed) scenarios
          (machine.run (runAll workspace grouping execution scenarios environment)).1 := by
  have verdict := run_eq_ok_iff workspace grouping execution machine path true
  simp only [allPassed_runAll_iff] at verdict
  rw [← verdict]
  obtain ⟨status, passed⟩ | ⟨status, failed⟩ := status_perform asks
  · exact ⟨fun _ => passed, fun _ => status⟩
  · rw [status]
    exact ⟨nofun, fun passed => absurd passed failed⟩

/-- One scenario that is aborted keeps the exit status from being zero. -/
theorem status_ne_zero_of_aborted (asks : Asks machine words path grouping execution workspace)
    {scenarios : List Scenario} {environment : Environment} {error : RunError}
    (loaded : (machine.run (Scenario.load path)).1 = .ok scenarios)
    (selected : workspace.environment execution.environment = .ok environment)
    (aborted : .error error ∈ (machine.run (runAll workspace grouping execution scenarios environment)).1) :
    (machine.run (perform words)).1.status ≠ 0 := by
  intro success
  obtain ⟨_, _, found, -, chosen, passed⟩ := (status_eq_zero_iff asks).mp success
  cases loaded.symm.trans found
  cases selected.symm.trans chosen
  have all := (allPassed_runAll_iff workspace grouping execution machine scenarios environment).mpr passed
  obtain ⟨_, ⟨⟩, -⟩ := (allPassed_iff _).mp all _ aborted

/-- How a command that runs scenarios ends, with a configuration that is found sound. Its exit status is zero or one. It
is zero exactly when the pathname leads to scenarios, an environment is selected, and each scenario has as its result a
run that passed; one scenario that is aborted makes it one. The results are those of the scenarios' own runs, where
these are taken in turns. Where those who carry scenarios out side by side go by what they come to, the results are the
same whoever follows the runs, and so is the exit status on any machine at the same point of its course: whatever files
there are for the history and for reports, and whatever is shown, saved and delivered. -/
theorem run_exit (asks : Asks machine words path grouping execution workspace) :
    let status := (machine.run (perform words)).1.status
    let results (scenarios : List Scenario) (environment : Environment) : List (Except RunError Run) :=
      (machine.run (runAll workspace grouping execution scenarios environment)).1
    (status = 0 ∨ status = 1) ∧
      (status = 0 ↔
        ∃ scenarios environment, (machine.run (Scenario.load path)).1 = .ok scenarios ∧ scenarios ≠ [] ∧
          workspace.environment execution.environment = .ok environment ∧
          List.Forall₂ (fun _ => TellsPassed) scenarios (results scenarios environment)) ∧
      (∀ scenarios environment error, (machine.run (Scenario.load path)).1 = .ok scenarios →
        workspace.environment execution.environment = .ok environment →
        .error error ∈ results scenarios environment → status = 1) ∧
      (Crew.TakesTurns → ∀ scenarios environment, ∃ watch : Watch, List.Forall₂
        (fun scenario => ComesTo (runScenario watch.observe (optionsOf workspace execution grouping.failFast)
          environment scenario))
        scenarios (results scenarios environment)) ∧
      (Crew.IsBlind → ∀ twin : Machine, machine.SameCourse twin →
        (∀ observe : Note → StateM Machine Unit, (∀ note, Leaves SameCourse (observe note)) →
          ∀ scenarios environment, results scenarios environment =
            (twin.run (runScenarios observe (optionsOf workspace execution grouping.failFast) environment
              (grouping.workers workspace) scenarios)).1) ∧
        ∀ (others : List String) (other : Execution), Asks twin others path grouping other workspace →
          (twin.run (Scenario.load path)).1 = (machine.run (Scenario.load path)).1 →
          other.environment = execution.environment → other.timeout = execution.timeout →
          (twin.run (perform others)).1.status = status) := by
  intro status results
  have ends : status = 0 ∨ status = 1 := status_eq_zero_or_one asks
  have succeeds := status_eq_zero_iff asks
  refine ⟨ends, succeeds, ?aborted, forall₂_runAll workspace grouping execution machine, ?followed⟩
  case aborted =>
    intro scenarios environment error loaded selected aborted
    exact ends.resolve_left (status_ne_zero_of_aborted asks loaded selected aborted)
  case followed =>
    intro blind twin same
    refine ⟨fun observe aside => runAll_eq workspace grouping execution machine blind aside same, ?_⟩
    intro others other wants loads selects waits
    have alike := status_eq_zero_iff wants
    simp only [loads, selects, runAll_congr workspace grouping execution machine blind same waits] at alike
    have agree := alike.trans succeeds.symm
    have bounds := status_eq_zero_or_one wants
    omega

end

end

/-- A machine with a scenario in a file, and a server that is content with every request. -/
def shop : Machine where
  tree := ⟨[(["buy.flow"], .file (some "## Step 1: buy\n\n```kest\nGET http://shop/buy\n```\n"))]⟩
  executor := fun _ _ => some { outcome := .ok { status := 200 } }

/-- The same machine where files stand in the way of the directories for the history and for reports. -/
def cluttered : Machine :=
  { shop with tree := ⟨shop.tree.entries ++ [([".kest"], .file none), (["reports"], .file none)]⟩ }

/-- Those who break down at whatever they are to carry out. -/
@[reducible] def brokenCrew : Crew (StateM Machine) where
  together _ _ := pure []

/-- The scenario passes on the first machine, and so it does on the second one, where nothing can be recorded or saved
and progress and the console are asked for. Where the run breaks down the command fails. -/
theorem shop_exits :
    let plain := ["run", "buy.flow"]
    let watched := plain ++ ["--format", "sse", "--report-dir", "reports", "--console-url", "http://console"]
    Asks shop plain "buy.flow" {} {} {} ∧
      (shop.run (perform plain)).1.status = 0 ∧ (cluttered.run (perform watched)).1.status = 0 ∧
      (shop.run (@perform (StateM Machine) _ _ brokenCrew plain)).1.status = 1 := by
  intro plain watched
  have asks : Asks shop plain "buy.flow" {} {} {} := ⟨none, rfl, rfl⟩
  have success : (shop.run (perform plain)).1.status = 0 := by decide +kernel
  obtain ⟨-, passes, -, -, followed⟩ := run_exit asks
  have same : shop.SameCourse cluttered := ⟨⟨rfl, rfl, rfl⟩, rfl, rfl⟩
  refine ⟨asks, success, ?cluttered, ?broken⟩
  case cluttered =>
    exact ((followed Crew.isBlind_sequential cluttered same).2 watched _ ⟨none, rfl, rfl⟩ rfl rfl rfl).trans success
  case broken =>
    obtain ⟨scenarios, environment, loaded, found, selected, -⟩ := passes.mp success
    obtain ⟨scenario, rest, rfl⟩ := List.exists_cons_of_ne_nil found
    obtain ⟨-, -, aborted, -⟩ := @run_exit brokenCrew _ _ _ _ _ _ asks
    apply aborted _ environment .incomplete loaded selected
    exact List.mem_map.mpr ⟨0, List.mem_range.mpr (Nat.succ_pos rest.length), rfl⟩

end Command

end Runbook

import Runbook.Proofs.Batch.Moves
import Runbook.Proofs.Run.Terminal

/-!
Runs side by side do not disturb each other: in whatever order their moves are made, each job comes to the result of its
run alone. A job that breaks down has that as its own result.
-/

namespace Runbook.Batch

open Interaction Engine

variable {σ : Type} {options : RunOptions} {workers : Nat} {executor : Executor} {observe : σ → Note → σ}
  {reply : Request → Option Outcome}

section

variable {front back after : List Slot} {indices : List Nat} {world final : World σ}

/-- An active job makes a move. -/
theorem interleaves_active {interaction : Interaction (Except RunError Run)}
    (later : Interleaves options workers executor observe
      (front ++ .ofInteraction (interaction.advance executor observe world).1 :: back)
      (interaction.advance executor observe world).2 indices after final) :
    Interleaves options workers executor observe (front ++ .active interaction :: back) world (front.length :: indices)
      after final :=
  .cons (move_eq_some_iff.mpr ⟨front, _, back, _, rfl, rfl, rfl, .advance⟩) later

/-- A job starts while none is active. -/
theorem interleaves_waiting {job : Job} (idle : ∀ interaction, .active interaction ∉ front ++ .waiting job :: back)
    (later : Interleaves options workers executor observe
      (front ++ .active (job.interaction options world.canceled) :: back) world indices after final) :
    Interleaves options workers executor observe (front ++ .waiting job :: back) world (front.length :: indices) after
      final :=
  .cons (move_eq_some_iff.mpr ⟨front, _, back, _, rfl, rfl, rfl, .start (free_of_idle idle)⟩) later

/-- What is left of a job after a move is carried on, unless it has its result. -/
theorem interleaves_ofInteraction {interaction : Interaction (Except RunError Run)}
    (later : ∃ indices, Interleaves options workers executor observe
      (front ++ .ofInteraction (interaction.advance executor observe world).1 :: back)
      (interaction.advance executor observe world).2 indices after final) :
    ∃ indices, Interleaves options workers executor observe (front ++ .ofInteraction (some interaction) :: back) world
      indices after final := by
  obtain ⟨indices, later⟩ := later
  cases interaction with
  | done => exact ⟨indices, later⟩
  | call | wait | note => exact ⟨_, interleaves_active later⟩

end

/-- A job that is played to its end makes moves of its own only. -/
theorem interleaves_advanced (front back : List Slot) (interaction : Interaction (Except RunError Run))
    (world : World σ) : ∃ indices, Interleaves options workers executor observe
      (front ++ .ofInteraction (interaction.advance executor observe world).1 :: back)
      (interaction.advance executor observe world).2 indices
      (front ++ .finished ((interaction.play executor observe world).1.getD (.error .incomplete)) :: back)
      (interaction.play executor observe world).2 := by
  induction interaction generalizing world with
  | done => exact ⟨[], .nil⟩
  | call request resume ih =>
    rw [advance_call, play_call]
    cases executor world.requests request with
    | none => exact ⟨[], .nil⟩
    | some served => exact interleaves_ofInteraction (ih _ _)
  | wait millis resume ih => exact interleaves_ofInteraction (ih _ _)
  | note content rest ih => exact ih _

/-- A job that is played on its own while no other one is active. -/
theorem interleaves_playJob (front back : List Slot) (job : Job) (world : World σ)
    (idle : ∀ interaction, .active interaction ∉ front ++ .waiting job :: back) :
    ∃ indices, Interleaves options workers executor observe (front ++ .waiting job :: back) world indices
      (front ++ .finished (playJob options executor observe world job).1 :: back)
      (playJob options executor observe world job).2 := by
  obtain ⟨indices, later⟩ := interleaves_advanced front back (job.interaction options world.canceled) world
  exact ⟨_, interleaves_waiting idle (interleaves_active later)⟩

/-- Playing one job after another is an interleaving, however many workers there are. -/
theorem interleaves_play (done : List (Except RunError Run)) (jobs : List Job) (world : World σ) :
    ∃ indices, Interleaves options workers executor observe (done.map .finished ++ jobs.map .waiting) world indices
      ((done ++ (play options executor observe jobs world).1).map .finished)
      (play options executor observe jobs world).2 := by
  induction jobs generalizing done world with
  | nil =>
    rw [play, List.append_nil, List.map_nil, List.append_nil]
    exact ⟨[], .nil⟩
  | cons job rest ih =>
    obtain ⟨first, own⟩ : ∃ indices, Interleaves options workers executor observe
        (done.map .finished ++ .waiting job :: rest.map .waiting) world indices _ _ :=
      interleaves_playJob (done.map .finished) (rest.map .waiting) job world (by simp)
    obtain ⟨second, others⟩ := ih (done ++ [(playJob options executor observe world job).1])
      (playJob options executor observe world job).2
    rw [List.map_append, List.append_assoc, List.append_assoc] at others
    exact ⟨first ++ second, own.append others⟩

/-- A run that comes to its end does not say that it broke down. -/
theorem carryOut_ne_incomplete {scenario : Scenario} {start : Start} {world : World σ} :
    (carryOut options scenario start executor observe world).1 ≠ some (.error .incomplete) := by
  intro incomplete
  unfold carryOut at incomplete
  have played : ((Engine.run options scenario (start.told world.canceled)).play executor observe world) =
      (some (.error .incomplete), _) := Prod.ext incomplete rfl
  cases valid : scenario.validate with
  | error error => simp [Engine.run, valid, Interaction.play] at incomplete
  | ok plan =>
    cases checked : (start.told world.canceled).environment.check with
    | error error => simp [Engine.run, valid, checked, Interaction.play] at incomplete
    | ok _ =>
      obtain ⟨notes, runs, -⟩ := exists_runs_of_play played
      obtain ⟨state, _, _, ends, _⟩ := run_runs valid checked runs
      cases ends

/-- The result of a job is that of its run alone, in any surroundings that are not canceled, apart from the times. It
says that the run broke down just when a request of that run has no reply. -/
structure Alone (options : RunOptions) (executor : Executor) (reply : Request → Option Outcome) (job : Job)
    (result : Except RunError Run) : Prop where
  same : ∀ {τ : Type} (watch : τ → Note → τ) (base : World τ), base.canceled = false →
    result.map Run.untimed =
      ((carryOut options job.scenario job.start executor watch base).1.getD (.error .incomplete)).map Run.untimed
  incomplete_iff : ∀ {τ : Type} (watch : τ → Note → τ) (base : World τ), base.canceled = false →
    ∃ sent, (carryOut options job.scenario job.start executor watch base).2.requests = base.requests ++ sent ∧
      (result = .error .incomplete ↔ ∃ request ∈ sent, reply request = none)

theorem conclusion_eq_getD (settled : Option (Except RunError Run)) :
    conclusion settled = (settled.getD (.error .incomplete)).map Run.untimed := by
  cases settled <;> rfl

theorem map_eq_incomplete_iff {result : Except RunError Run} :
    result.map Run.untimed = .error .incomplete ↔ result = .error .incomplete := by
  cases result with
  | error error => exact Iff.rfl
  | ok run => simp [Except.map]

/-- What the interaction of a job comes to is the result of its run alone. -/
theorem alone_of_conclusion {job : Job} {result : Except RunError Run} (replies : executor.Replies reply)
    (steady : executor.Steady) (uncanceled : job.start.canceled = false)
    (settles : result.map Run.untimed = conclusion ((job.interaction options false).settle reply)) :
    Alone options executor reply job result := by
  have same {τ : Type} (watch : τ → Note → τ) (base : World τ) (calm : base.canceled = false) :
      result.map Run.untimed =
        ((carryOut options job.scenario job.start executor watch base).1.getD (.error .incomplete)).map
          Run.untimed := by
    have start : job.interaction options false = Engine.run options job.scenario (job.start.told base.canceled) := by
      rw [Job.interaction, uncanceled, calm]
      rfl
    rw [settles, start, ← conclusion_eq_getD]
    exact congrArg (Option.getD · _) (play_settle replies steady calm (run_sameOn options _ _)).symm
  refine ⟨same, fun watch base calm => ?_⟩
  obtain ⟨sent, requests, none_iff⟩ : ∃ sent,
      (carryOut options job.scenario job.start executor watch base).2.requests = base.requests ++ sent ∧
        ((carryOut options job.scenario job.start executor watch base).1 = none ↔
          ∃ request ∈ sent, reply request = none) := play_eq_none_iff replies _ base
  refine ⟨sent, requests, ?_⟩
  rw [← none_iff, ← map_eq_incomplete_iff, same watch base calm, map_eq_incomplete_iff]
  have complete : (carryOut options job.scenario job.start executor watch base).1 ≠ some (.error .incomplete) :=
    carryOut_ne_incomplete
  cases played : (carryOut options job.scenario job.start executor watch base).1 with
  | none => simp
  | some value =>
    rw [played, ne_eq, Option.some.injEq] at complete
    simp [complete]

/-- Jobs that share an executor whose replies are a function of the request alone come to the results of their runs
alone, in the order of the jobs, in whatever order they make their moves. There are never more jobs in progress than
workers, no interleaving goes on without end, and each can be completed. Playing one job after another gives the
same. -/
theorem interleaves_alone (options : RunOptions) (workers : Nat) (executor : Executor)
    (reply : Request → Option Outcome) (observe : σ → Note → σ) (jobs : List Job) (world : World σ)
    (replies : executor.Replies reply) (steady : executor.Steady) (calm : world.canceled = false)
    (uncanceled : ∀ job ∈ jobs, job.start.canceled = false) :
    (∃ bound, ∀ indices slots final,
      Interleaves options workers executor observe (jobs.map .waiting) world indices slots final →
        activeCount slots ≤ max workers 1 ∧ indices.length ≤ bound ∧
        (∃ more after last, Interleaves options workers executor observe slots final more after last ∧
          Complete options workers executor observe after last) ∧
        (Complete options workers executor observe slots final → ∃ results : List (Except RunError Run),
          slots = results.map .finished ∧ List.Forall₂ (Alone options executor reply) jobs results)) ∧
    List.Forall₂ (Alone options executor reply) jobs (play options executor observe jobs world).1 := by
  have running : Running options workers reply _ (jobs.map .waiting) world := running_waiting jobs calm
  have ends {indices : List Nat} {results : List (Except RunError Run)} {final : World σ}
      (interleaves : Interleaves options workers executor observe (jobs.map .waiting) world indices
        (results.map .finished) final) : List.Forall₂ (Alone options executor reply) jobs results := by
    have outcomes := (running.interleaves replies steady interleaves).1.outcomes.symm
    rw [← List.forall₂_eq_eq_eq, List.forall₂_map_left_iff, List.map_map, List.forall₂_map_right_iff] at outcomes
    refine ((List.forall₂_and_left jobs results).mpr ⟨uncanceled, outcomes⟩).imp ?_
    rintro job result ⟨uncanceled, settles⟩
    exact alone_of_conclusion replies steady uncanceled settles.symm
  refine ⟨⟨movesLeft options reply (jobs.map .waiting), fun indices slots final interleaves => ?_⟩, ?_⟩
  · obtain ⟨now, bounded⟩ := running.interleaves replies steady interleaves
    refine ⟨now.limited, Nat.le_of_add_right_le bounded, now.completes replies steady, fun complete => ?_⟩
    obtain ⟨results, rfl⟩ := complete.finished
    exact ⟨results, rfl, ends interleaves⟩
  · obtain ⟨indices, interleaves⟩ : ∃ indices, Interleaves options workers executor observe (jobs.map .waiting) world
        indices ((play options executor observe jobs world).1.map .finished) _ := interleaves_play [] jobs world
    exact ends interleaves

/-- The replies of a server that breaks down over one of its pages. -/
def fragileReply (request : Request) : Option Outcome :=
  if request.url = "http://host/c" then none else some (.ok { status := 200 })

/-- The server; it takes longer with every request. -/
def fragile : Executor := fun earlier request =>
  (fragileReply request).map fun outcome => { outcome, elapsed := earlier.length }

theorem fragile_alone :
    fragile.Replies fragileReply ∧ fragile.Steady ∧ ∃ more last first second,
      Interleaves {} 2 fragile (fun seen _ => seen) [.waiting ⟨twin, plainStart⟩, .waiting ⟨Plan.crossed, plainStart⟩]
        { seen := () } ([1, 0, 0, 1] ++ more) [.finished first, .finished second] last ∧
      first.toOption.map Run.status = some .passed ∧ second = .error .incomplete := by
  have replies : fragile.Replies fragileReply := fun earlier request => by
    simp only [fragile, Option.map_map]
    exact Option.map_id'
  have steady : fragile.Steady := fun earlier request served answer => by
    obtain ⟨outcome, -, rfl⟩ := Option.map_eq_some_iff.mp answer
    rfl
  obtain ⟨⟨bound, every⟩, -⟩ := interleaves_alone {} 2 fragile fragileReply (fun seen _ => seen)
    [⟨twin, plainStart⟩, ⟨Plan.crossed, plainStart⟩] { seen := () } replies steady rfl (by simp [plainStart])
  have started : Interleaves {} 2 fragile (fun (seen : Unit) _ => seen)
      [.waiting ⟨twin, plainStart⟩, .waiting ⟨Plan.crossed, plainStart⟩] { seen := () } [1, 0, 0, 1] _ _ :=
    .cons rfl (.cons rfl (.cons rfl (.cons rfl .nil)))
  obtain ⟨-, -, ⟨more, after, last, rest, complete⟩, -⟩ := every _ _ _ started
  obtain ⟨-, -, -, ends⟩ := every _ _ _ (started.append rest)
  obtain ⟨results, rfl, alone⟩ := ends complete
  cases alone with
  | @cons _ first _ _ twinAlone alone =>
    cases alone with
    | @cons _ second _ _ crossedAlone alone =>
      cases alone
      refine ⟨replies, steady, more, last, first, second, started.append rest, ?_, ?_⟩
      · have status : (((carryOut {} twin plainStart fragile (fun seen _ => seen) { seen := () }).1.getD
            (.error .incomplete)).map Run.untimed).toOption.map Run.status = some .passed := by rfl
        rw [← twinAlone.same (fun seen _ => seen) { seen := () } rfl] at status
        cases first with
        | error => cases status
        | ok run => exact status
      · obtain ⟨sent, requests, incomplete_iff⟩ := crossedAlone.incomplete_iff (fun seen _ => seen) { seen := () } rfl
        have pages : (carryOut {} Plan.crossed plainStart fragile (fun seen _ => seen) { seen := () }).2.requests =
            [{ method := .get, url := "http://host/a" }, { method := .get, url := "http://host/c" }] := by rfl
        refine incomplete_iff.mpr ⟨{ method := .get, url := "http://host/c" }, ?_, rfl⟩
        have sent_eq : [_, _] = sent := pages.symm.trans requests
        rw [← sent_eq]
        exact List.mem_cons_of_mem _ List.mem_cons_self

end Runbook.Batch

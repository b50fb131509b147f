import Runbook.Run.Engine

/-!
Several runs side by side. A move starts a waiting job while a worker is free, or takes an active job over one request
or wait; any order of moves is an interleaving. The results stand in the order of the jobs. `Batch.play` is the
interleaving that takes one job after another.
-/

namespace Runbook

/-- A scenario and where it starts. -/
structure Job where
  scenario : Scenario
  start : Engine.Start

/-- The interaction of a job; a job that starts after a cancellation is canceled from the start. -/
def Job.interaction (options : RunOptions) (canceled : Bool) (job : Job) : Interaction (Except RunError Run) :=
  Engine.run options job.scenario { job.start with canceled := job.start.canceled || canceled }

namespace Batch

/-- A job in a batch. -/
inductive Slot where
  | waiting (job : Job)
  | active (interaction : Interaction (Except RunError Run))
  | finished (result : Except RunError Run)

/-- The job is in progress. -/
def Slot.isActive : Slot → Bool
  | active _ => true
  | _ => false

/-- The number of jobs in progress. -/
def activeCount (slots : List Slot) : Nat := slots.countP Slot.isActive

/-- The number of workers; there is always one. -/
def workerCount (workers : Nat) : Nat := max workers 1

/-- The slot of an interaction that has come this far; one that broke down has a result of its own. -/
def Slot.ofInteraction : Option (Interaction (Except RunError Run)) → Slot
  | some (.done result) => finished result
  | some interaction => active interaction
  | none => finished (.error .incomplete)

variable {σ : Type}

/-- A move of the job with an index, if it can make one. -/
def move (options : RunOptions) (workers : Nat) (executor : Interaction.Executor) (observe : σ → Note → σ)
    (slots : List Slot) (world : Interaction.World σ) (index : Nat) : Option (List Slot × Interaction.World σ) :=
  match slots[index]? with
  | some (.waiting job) =>
    if activeCount slots < workerCount workers then
      some (slots.set index (.active (job.interaction options world.canceled)), world)
    else none
  | some (.active interaction) =>
    let (next, world) := interaction.advance executor observe world
    some (slots.set index (.ofInteraction next), world)
  | some (.finished _) | none => none

/-- The result of a job that is played on its own. -/
def playJob (options : RunOptions) (executor : Interaction.Executor) (observe : σ → Note → σ)
    (world : Interaction.World σ) (job : Job) : Except RunError Run × Interaction.World σ :=
  let (result, world) := (job.interaction options world.canceled).play executor observe world
  (result.getD (.error .incomplete), world)

/-- The results of jobs that are played one after another. -/
def play (options : RunOptions) (executor : Interaction.Executor) (observe : σ → Note → σ) :
    List Job → Interaction.World σ → List (Except RunError Run) × Interaction.World σ
  | [], world => ([], world)
  | job :: rest, world =>
    let (result, world) := playJob options executor observe world job
    let (results, world) := play options executor observe rest world
    (result :: results, world)

end Batch
end Runbook

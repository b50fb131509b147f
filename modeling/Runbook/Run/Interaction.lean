import Runbook.Progress.Event

/-!
Interactions: computations that send requests, wait and leave notes, told apart from whoever answers, keeps time and
reads the notes. An interaction learns what comes back for a request and whether it has been canceled, and nothing else.
-/

namespace Runbook

/-- Something that an interaction tells to whoever observes it. -/
inductive Note where
  | progress (event : ProgressEvent)
  /-- A request and what came back for it, with the milliseconds that passed. -/
  | exchange (request : Request) (outcome : Outcome) (elapsed : Nat)
  /-- An attempt failed and another one follows: the number of the attempt, the number of all, and the wait. -/
  | retry (attempt total wait : Nat) (cause : String)

/-- What an interaction gets back for a request. -/
structure Answer where
  outcome : Outcome
  /-- The milliseconds that passed. -/
  elapsed : Nat := 0
  /-- The run has been canceled, before the request or while it was in flight. -/
  canceled : Bool := false

/-- A computation that sends requests. -/
inductive Interaction (α : Type) where
  | done (result : α)
  | call (request : Request) (resume : Answer → Interaction α)
  /-- The computation waits for some milliseconds, and learns whether it has been canceled. -/
  | wait (millis : Nat) (resume : Bool → Interaction α)
  | note (content : Note) (rest : Interaction α)

namespace Interaction

variable {α β : Type}

/-- An interaction followed by another one that depends on its result. -/
def bind (next : α → Interaction β) : Interaction α → Interaction β
  | done result => next result
  | call request resume => call request fun answer => bind next (resume answer)
  | wait millis resume => wait millis fun canceled => bind next (resume canceled)
  | note content rest => note content (bind next rest)

instance : Monad Interaction where
  pure := done
  bind interaction next := interaction.bind next

/-- What an executor does with a request: what comes back, the milliseconds it takes, and whether the run is canceled
while the request is in flight. -/
structure Served where
  outcome : Outcome
  elapsed : Nat := 0
  cancels : Bool := false

/-- An executor answers a request in view of all earlier ones, or breaks down. -/
abbrev Executor := List Request → Request → Option Served

/-- The surroundings of an interaction: the requests sent so far with the time of each, the clock, the cancel flag, and
what an observer has made of the notes. -/
structure World (σ : Type) where
  calls : List (Nat × Request) := []
  clock : Nat := 0
  canceled : Bool := false
  seen : σ

variable {σ : Type}

namespace World

/-- The requests sent so far, in order. -/
def requests (world : World σ) : List Request := world.calls.map Prod.snd

/-- The world after a request is sent and served. -/
def serve (executor : Executor) (world : World σ) (request : Request) : Option Served × World σ :=
  let served := executor world.requests request
  let canceled := match served with
    | some served => world.canceled || served.cancels
    | none => world.canceled
  (served, { world with calls := world.calls ++ [(world.clock, request)], canceled })

end World

/-- An interaction played to its end; without a result if the executor breaks down. The clock advances by the waits. -/
def play (executor : Executor) (observe : σ → Note → σ) : Interaction α → World σ → Option α × World σ
  | done result, world => (some result, world)
  | call request resume, world =>
    let (served, world) := world.serve executor request
    match served with
    | some served => play executor observe (resume ⟨served.outcome, served.elapsed, world.canceled⟩) world
    | none => (none, world)
  | wait millis resume, world =>
    play executor observe (resume world.canceled) { world with clock := world.clock + millis }
  | note content rest, world => play executor observe rest { world with seen := observe world.seen content }

/-- An interaction advanced over one request or wait; nothing is left of it if the executor breaks down. -/
def advance (executor : Executor) (observe : σ → Note → σ) :
    Interaction α → World σ → Option (Interaction α) × World σ
  | done result, world => (some (done result), world)
  | call request resume, world =>
    let (served, world) := world.serve executor request
    match served with
    | some served => (some (resume ⟨served.outcome, served.elapsed, world.canceled⟩), world)
    | none => (none, world)
  | wait millis resume, world => (some (resume world.canceled), { world with clock := world.clock + millis })
  | note content rest, world => advance executor observe rest { world with seen := observe world.seen content }

end Interaction
end Runbook

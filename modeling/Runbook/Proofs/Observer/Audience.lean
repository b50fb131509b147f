import Runbook.Proofs.Batch.Untimed
import Runbook.Proofs.Observer.Frame
import Runbook.Proofs.Progress.Stream
import Runbook.Proofs.Run.Terminal

/-!
Runs under observation. A run may be recorded in a history, any of whose writes may fail, and it may publish its
progress to a channel that is full, closed or read at any pace. None of this has an influence on the run: but for the
times of its answers it comes to the same result, and it makes the same calls.
-/

namespace Runbook

/-- What the reader of a channel does. -/
inductive Channel.Reading where
  | receive
  | drain
  | leave

/-- The channel after its reader did something. -/
def Channel.read (channel : Channel) : Reading → Channel
  | .receive => channel.receive.2
  | .drain => channel.drain.2
  | .leave => channel.dropReceiver

/-- Those who follow a run: the history that it is recorded in and the channel of its progress, where there are any. -/
structure Audience where
  history : Option History.Store := none
  /-- The number of exchanges so far. -/
  exchanges : Nat := 0
  channel : Option Channel := none
  /-- The number of events so far. -/
  events : Nat := 0

/-- How an audience behaves. -/
structure Habits where
  project : Option String := none
  /-- The time that is recorded with an exchange, by its number. -/
  now : Nat → Time.Instant := fun _ => ⟨0, 0⟩
  /-- An exchange cannot be written to the history. -/
  fails : Nat → Bool := fun _ => false
  /-- The milliseconds that recording an exchange takes. -/
  delay : Nat → Nat := fun _ => 0
  /-- What the reader of the channel does before an event is published. -/
  reads : Nat → List Channel.Reading := fun _ => []

namespace Audience

/-- The audience after a note: an exchange is recorded unless that fails, and an event is published. -/
def observe (habits : Habits) (audience : Audience) : Note → Audience
  | .progress event => { audience with
      channel := audience.channel.map fun channel =>
        ((habits.reads audience.events).foldl Channel.read channel).observe (.progress event)
      events := audience.events + 1 }
  | .exchange request outcome elapsed => { audience with
      history := audience.history.map fun store =>
        if habits.fails audience.exchanges then store
        else store.observe (habits.now audience.exchanges) habits.project (.exchange request outcome elapsed)
      exchanges := audience.exchanges + 1 }
  | .retry .. => audience

end Audience

namespace Interaction

variable {α γ σ τ : Type}

/-- The executor with the time that recording takes behind each of its answers. -/
def Executor.delayed (executor : Executor) (delay : Nat → Nat) : Executor := fun earlier request =>
  (executor earlier request).map fun served => { served with elapsed := served.elapsed + delay earlier.length }

theorem Executor.delayed_apply (executor : Executor) (delay : Nat → Nat) (earlier : List Request) (request : Request) :
    executor.delayed delay earlier request =
      (executor earlier request).map fun served => { served with elapsed := served.elapsed + delay earlier.length } :=
  rfl

/-- Interactions that differ only in time are played alike, whoever observes them and however long that takes. -/
theorem Alike.play_eq {told : α → γ} {first second : Interaction α} (same : SameOn told first second)
    (executor : Executor) (delay other : Nat → Nat) (observe : σ → Note → σ) (watch : τ → Note → τ)
    {world : World σ} {twin : World τ} (here : world.forget = twin.forget) :
    (first.play (executor.delayed delay) observe world).1.map told =
        (second.play (executor.delayed other) watch twin).1.map told ∧
      (first.play (executor.delayed delay) observe world).2.forget =
        (second.play (executor.delayed other) watch twin).2.forget := by
  induction same generalizing world twin with
  | done results => exact ⟨congrArg some results, here⟩
  | @call request _ _ _ ih =>
    rw [play_call, play_call, ← World.requests_forget world, ← World.requests_forget twin, here,
      Executor.delayed_apply, Executor.delayed_apply]
    cases executor twin.forget.requests request with
    | none => exact ⟨rfl, congrArg (fun bare => { bare with calls := bare.calls ++ [(bare.clock, request)] }) here⟩
    | some served =>
      have canceled : world.canceled = twin.canceled := congrArg World.canceled here
      have after : (world.answered request served).forget = (twin.answered request served).forget :=
        congrArg (World.answered · request served) here
      rw [canceled]
      exact ih ⟨served.outcome, served.elapsed + delay _, _⟩ ⟨served.outcome, served.elapsed + other _, _⟩ rfl rfl after
  | @wait millis first second _ ih =>
    have canceled : world.canceled = twin.canceled := congrArg World.canceled here
    have after : (world.waited millis).forget = (twin.waited millis).forget := congrArg (World.waited · millis) here
    have goesOn {ρ : Type} {executor : Executor} {observe : ρ → Note → ρ} (resume : Bool → Interaction α)
        (world : World ρ) : (Interaction.wait millis resume).play executor observe world =
          (resume world.canceled).play executor observe (world.waited millis) := rfl
    rw [goesOn, goesOn, canceled]
    exact ih _ after
  | note _ ih => exact ih here

end Interaction

/-- A machine with the files, settings and outputs of another one, and with a server of its own. -/
def Machine.withServer (machine server : Machine) : Machine :=
  { machine with executor := server.executor, requests := server.requests, canceled := server.canceled }

namespace Engine

open Interaction

/-- A scenario carried out on a machine, for a command that follows it; the run is told at its start whether the machine
is canceled. -/
def carryOutOn (options : RunOptions) (scenario : Scenario) (start : Start) (watch : Command.Watch)
    (machine : Machine) : Except RunError Run × Machine :=
  (Interaction.perform watch.observe (run options scenario (start.told machine.canceled)) : StateM Machine _) machine

/-- A run comes to the same result but for the times, and makes the same calls, whoever follows it: whatever is recorded
of it or fails to be, and however its progress is received. On a machine it comes to the very same result and sends the
same requests, whatever is shown, and whatever becomes of the files in which the history is kept. -/
theorem carryOut_observer_free (options : RunOptions) (scenario : Scenario) (start : Start) (executor : Executor) :
    (∀ (calls : List (Nat × Request)) (clock : Nat) (canceled : Bool) (habits other : Habits)
        (audience listener : Audience),
      let first := carryOut options scenario start (executor.delayed habits.delay) (Audience.observe habits)
        ⟨calls, clock, canceled, audience⟩
      let second := carryOut options scenario start (executor.delayed other.delay) (Audience.observe other)
        ⟨calls, clock, canceled, listener⟩
      first.1.map (Except.map Run.untimed) = second.1.map (Except.map Run.untimed) ∧
        first.2.calls = second.2.calls ∧ first.2.canceled = second.2.canceled) ∧
    ∀ (watch other : Command.Watch) (machine twin : Machine),
      let first := carryOutOn options scenario start watch machine
      let second := carryOutOn options scenario start other (twin.withServer machine)
      first.1 = second.1 ∧ first.2.requests = second.2.requests ∧ first.2.canceled = second.2.canceled := by
  constructor
  · intro calls clock canceled habits other audience listener
    have here : World.forget ⟨calls, clock, canceled, audience⟩ = World.forget ⟨calls, clock, canceled, listener⟩ := rfl
    obtain ⟨results, worlds⟩ := (run_sameOn options scenario (start.told canceled)).play_eq executor habits.delay
      other.delay (Audience.observe habits) (Audience.observe other) here
    exact ⟨results, (congrArg World.calls worlds :), (congrArg World.canceled worlds :)⟩
  · intro watch other machine twin
    have same : machine.SameServer (twin.withServer machine) := ⟨rfl, rfl, rfl⟩
    obtain ⟨results, servers⟩ := Interaction.perform_eq (Machine.leavesServer_observe watch)
      (Machine.leavesServer_observe other) (run options scenario (start.told machine.canceled)) same
    exact ⟨results, servers.requests, servers.canceled⟩

/-- An audience with an empty history and a channel that holds one event. -/
def emptyAudience : Audience := { history := some {}, channel := some (.ofCapacity 1) }

-- Two audiences of the same run: one records every exchange, the other fails to and leaves the channel.
example :
    let seen (habits : Habits) : Audience :=
      (carryOut {} twin plainStart lateCancel (Audience.observe habits) { seen := emptyAudience }).2.seen
    let deaf : Habits := { fails := fun _ => true, reads := fun _ => [.leave] }
    (seen {}).history.map (·.rows.length) = some 2 ∧ (seen deaf).history.map (·.rows.length) = some 0 ∧
      (seen {}).channel.map (·.queue.length) = some 1 ∧ (seen deaf).channel.map (·.queue.length) = some 0 := by
  exact ⟨rfl, rfl, rfl, rfl⟩

end Engine

end Runbook

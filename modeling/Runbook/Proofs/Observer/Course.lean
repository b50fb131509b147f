import Mathlib.Data.List.Forall2
import Runbook.Proofs.Host.Files
import Runbook.Proofs.Observer.Frame

/-!
The course of a machine: its server, its clock and its draws. On machines at the same point of their course scenarios
come to the same results, whatever files there are, whatever is shown and whoever follows the runs, as long as those who
carry them out side by side go by what computations come to.
-/

namespace Runbook

namespace Machine

variable {α β : Type}

/-- Two machines are at the same point of their course: beside their servers, the next times and draws are the same. -/
structure SameCourse (first second : Machine) : Prop extends SameServer first second where
  clock : first.clock = second.clock
  drawn : first.drawn = second.drawn

theorem SameCourse.likeness : Likeness SameCourse where
  refl machine := ⟨.refl machine, rfl, rfl⟩
  symm same := ⟨same.toSameServer.symm, same.clock.symm, same.drawn.symm⟩
  trans left right := ⟨left.toSameServer.trans right.toSameServer, left.clock.trans right.clock,
    left.drawn.trans right.drawn⟩
  aside _ _ _ _ := ⟨⟨rfl, rfl, rfl⟩, rfl, rfl⟩
  send := by
    rintro first second ⟨same, clock, drawn⟩ request
    obtain ⟨answers, servers⟩ := same.send request
    refine ⟨answers, servers, ?_, drawn⟩
    unfold Machine.send
    rw [same.executor, same.requests, clock]
  canceled same := same.canceled
  waited same millis := ⟨SameServer.likeness.waited same.toSameServer millis,
    congrArg (Time.Instant.after · millis) same.clock, same.drawn⟩

/-- Computations that come to the same, on machines at the same point of their course, and lead them to one point. -/
def Likewise (first second : StateM Machine α) : Prop :=
  ∀ ⦃machine twin : Machine⦄, machine.SameCourse twin →
    (machine.run first).1 = (twin.run second).1 ∧ (machine.run first).2.SameCourse (twin.run second).2

namespace Likewise

theorem pure (value : α) : Likewise (Pure.pure value) (Pure.pure value) := fun _ _ same => ⟨rfl, same⟩

theorem bind {first second : StateM Machine α} {next other : α → StateM Machine β} (starts : Likewise first second)
    (further : ∀ value, Likewise (next value) (other value)) : Likewise (first >>= next) (second >>= other) := by
  intro machine twin same
  obtain ⟨values, later⟩ := starts same
  have goesOn {start : StateM Machine α} {onward : α → StateM Machine β} (machine : Machine) :
      machine.run (start >>= onward) = (machine.run start).2.run (onward (machine.run start).1) := run_bind rfl
  rw [goesOn, goesOn, values]
  exact further _ later

theorem draws : Likewise Host.draws Host.draws := by
  intro machine twin same
  refine ⟨?_, ⟨same.executor, same.requests, same.canceled⟩, same.clock, congrArg (· + 1) same.drawn⟩
  show Template.Draws.part ⟨machine.clock, 0⟩ machine.drawn = Template.Draws.part ⟨twin.clock, 0⟩ twin.drawn
  rw [same.clock, same.drawn]

theorem pause (millis : Nat) : Likewise (Host.pause millis) (Host.pause millis) := fun _ _ same =>
  ⟨same.canceled, SameCourse.likeness.waited same millis⟩

/-- Computations one after another come to the same when each of them does. -/
theorem mapM {firsts seconds : List (StateM Machine α)} (each : List.Forall₂ Likewise firsts seconds) :
    Likewise (firsts.mapM id) (seconds.mapM id) := by
  induction each with
  | nil => exact pure []
  | cons head _ ih =>
    rw [List.mapM_cons, List.mapM_cons]
    exact head.bind fun value => ih.bind fun values => pure (value :: values)

end Likewise

end Machine

open Machine

/-- Those who carry out computations side by side go by what they come to: computations that cannot be told apart one by
one cannot be told apart together. -/
def Crew.IsBlind [Crew (StateM Machine)] : Prop :=
  ∀ {α : Type} (count : Nat) {firsts seconds : List (StateM Machine α)}, List.Forall₂ Likewise firsts seconds →
    Likewise (Crew.together count firsts) (Crew.together count seconds)

/-- Carrying out one computation after another is blind. -/
theorem Crew.isBlind_sequential : Crew.IsBlind := fun _ _ _ each => .mapM each

namespace Machine.Likeness

variable {alike : Machine → Machine → Prop} (likeness : Likeness alike)

include likeness

theorem reads {α : Type} {computation : StateM Machine α} (reads : Reads computation) : Leaves alike computation := by
  intro machine
  rw [show (computation machine).2 = machine from reads machine]
  exact likeness.refl machine

/-- Opening the history for a run leaves the machine like it was, whether it succeeds or fails. -/
theorem watchOf (workspace : Command.Workspace) (execution : Command.Execution) :
    Leaves alike (Command.watchOf workspace execution) := by
  apply likeness.bind (likeness.reads Reads.isTerminal)
  intro color
  refine likeness.bind ?_ fun _ => likeness.pure _
  apply likeness.bind (likeness.reads (Command.Workspace.reads_recorder workspace))
  intro recorder
  exact likeness.bind (likeness.open recorder) fun _ => likeness.pure _

end Machine.Likeness

namespace Command

variable {observe watch : Note → StateM Machine Unit}

/-- A scenario comes to the same result whoever follows its run. -/
theorem likewise_runScenario (aside : ∀ note, Leaves SameCourse (observe note))
    (apart : ∀ note, Leaves SameCourse (watch note)) (options : RunOptions) (environment : Environment)
    (scenario : Scenario) :
    Likewise (runScenario observe options environment scenario) (runScenario watch options environment scenario) := by
  unfold runScenario
  apply Likewise.draws.bind
  intro drawn
  apply Likewise.draws.bind
  intro draws
  apply (Likewise.pause 0).bind
  intro canceled machine twin same
  exact Interaction.perform_alike SameCourse.likeness aside apart _ same

/-- Scenarios come to the same results whoever follows their runs. -/
theorem likewise_runScenarios [Crew (StateM Machine)] (blind : Crew.IsBlind)
    (aside : ∀ note, Leaves SameCourse (observe note)) (apart : ∀ note, Leaves SameCourse (watch note))
    (options : RunOptions) (environment : Environment) (workers : Nat) (scenarios : List Scenario) :
    Likewise (runScenarios observe options environment workers scenarios)
      (runScenarios watch options environment workers scenarios) := by
  refine Likewise.bind (blind _ ?_) fun ended => .pure _
  rw [List.forall₂_map_left_iff, List.forall₂_map_right_iff, List.forall₂_same]
  rintro ⟨scenario, place⟩ -
  exact (likewise_runScenario aside apart options environment scenario).bind fun result => .pure (place, result)

end Command

end Runbook

import Runbook.Command.Conduct
import Runbook.Proofs.Host.Files

/-!
What showing progress and recording the history leave alone. On a machine they change files and output, and may fail at
that. Under every likeness of machines that files and output do not count for, the machine is like it was; who answers
requests, the requests sent so far and the cancel flag are such a likeness.
-/

namespace Runbook

namespace Machine

/-- Two machines have the same server at the same point: what it answers next, and whether the run is canceled by then,
is the same on both. -/
structure SameServer (first second : Machine) : Prop where
  executor : first.executor = second.executor
  requests : first.requests = second.requests
  canceled : first.canceled = second.canceled

theorem SameServer.refl (machine : Machine) : SameServer machine machine := ⟨rfl, rfl, rfl⟩

theorem SameServer.trans {first second third : Machine} (left : SameServer first second)
    (right : SameServer second third) : SameServer first third :=
  ⟨left.executor.trans right.executor, left.requests.trans right.requests, left.canceled.trans right.canceled⟩

theorem SameServer.symm {first second : Machine} (same : SameServer first second) : SameServer second first :=
  ⟨same.executor.symm, same.requests.symm, same.canceled.symm⟩

/-- Servers at the same point answer a request alike, and are at the same point again afterwards. -/
theorem SameServer.send {first second : Machine} (same : SameServer first second) (request : Request) :
    (first.send request).1 = (second.send request).1 ∧ SameServer (first.send request).2 (second.send request).2 := by
  obtain ⟨executor, requests, canceled⟩ := same
  unfold Machine.send
  rw [executor, requests, canceled]
  exact ⟨rfl, rfl, rfl, rfl⟩

/-- A machine after some milliseconds have passed. -/
def waited (machine : Machine) (millis : Nat) : Machine := { machine with clock := machine.clock.after millis }

/-- A computation on a machine leaves it like it was. -/
def Leaves {α : Type} (alike : Machine → Machine → Prop) (computation : StateM Machine α) : Prop :=
  ∀ machine, alike (computation machine).2 machine

/-- A likeness of machines that interactions cannot tell apart: alike machines answer a request alike, and stay alike
behind it and behind a pause. Files and outputs do not count. -/
structure Likeness (alike : Machine → Machine → Prop) : Prop extends Equivalence alike where
  aside (machine : Machine) (tree : FileTree) (output errors : String) :
    alike { machine with tree, output, errors } machine
  send {first second : Machine} (same : alike first second) (request : Request) :
    (first.send request).1 = (second.send request).1 ∧ alike (first.send request).2 (second.send request).2
  canceled {first second : Machine} (same : alike first second) : first.canceled = second.canceled
  waited {first second : Machine} (same : alike first second) (millis : Nat) :
    alike (first.waited millis) (second.waited millis)

theorem SameServer.likeness : Likeness SameServer where
  refl := .refl
  symm := .symm
  trans := .trans
  aside _ _ _ _ := ⟨rfl, rfl, rfl⟩
  send := SameServer.send
  canceled same := same.canceled
  waited same _ := ⟨same.executor, same.requests, same.canceled⟩

namespace Likeness

variable {α β : Type} {alike : Machine → Machine → Prop} (likeness : Likeness alike)

section

include likeness

theorem pure (value : α) : Leaves alike (Pure.pure value : StateM Machine α) := likeness.refl

theorem bind {computation : StateM Machine α} {next : α → StateM Machine β} (first : Leaves alike computation)
    (further : ∀ value, Leaves alike (next value)) : Leaves alike (computation >>= next) := fun machine =>
  likeness.trans (further _ _) (first machine)

/-- A computation leaves machines alike when it maintains that they are like another one. -/
theorem of_maintains {computation : StateM Machine α} (maintains : ∀ origin, Maintains (alike · origin) computation) :
    Leaves alike computation := fun machine => maintains machine machine (likeness.refl machine)

theorem maintains {computation : StateM Machine α} (leaves : Leaves alike computation) (origin : Machine) :
    Maintains (alike · origin) computation := fun machine same => likeness.trans (leaves machine) same

/-- Whatever becomes of the files, the machine is like it was. -/
theorem change (step : FileTree → Place → Except FileError FileTree) : Leaves alike (Machine.change step) := by
  intro machine
  unfold Machine.change
  cases step machine.tree machine.workingDirectory with
  | ok tree => exact likeness.aside machine tree machine.output machine.errors
  | error error => exact likeness.refl machine

theorem readText (path : String) : Leaves alike (Files.readText path) := likeness.refl

theorem makeDirectory (path : String) : Leaves alike (Files.makeDirectory path) := fun machine =>
  likeness.change _ machine

theorem makeDirectories (path : String) : Leaves alike (Files.makeDirectories path) :=
  likeness.of_maintains fun origin =>
    Maintains.makeDirectories (fun directory => likeness.maintains (likeness.makeDirectory directory) origin) path

theorem write (path text : String) : Leaves alike (Files.write path text) := fun machine => likeness.change _ machine

theorem append (path text : String) : Leaves alike (Files.append path text) := fun machine => likeness.change _ machine

theorem print (text : String) : Leaves alike (Host.print text) := fun machine =>
  likeness.aside machine machine.tree _ machine.errors

end

end Likeness

open History

/-- Writing a line to a log file maintains what making directories and adding the line do. -/
theorem Maintains.log {kept : Machine → Prop} (made : ∀ path, Maintains kept (Files.makeDirectory path))
    {directory : String} {entry : HistoryEntry}
    (added : Maintains kept (Files.append (Pathname.join directory (logName entry)) (logLine entry))) :
    Maintains kept (Recorder.log directory entry) := by
  unfold Recorder.log
  refine (Maintains.makeDirectories made directory).bind fun result => ?_
  cases result with
  | ok => exact added.discard
  | error error => exact Maintains.pure _

namespace Likeness

variable {alike : Machine → Machine → Prop} (likeness : Likeness alike)

include likeness

/-- The store of the history is read, if it can be read. -/
theorem load (recorder : Recorder) : Leaves alike recorder.load := by
  apply likeness.bind (likeness.readText recorder.database)
  intro found
  split <;> exact likeness.pure _

theorem save (recorder : Recorder) (task : String) (store : Store) : Leaves alike (recorder.save task store) :=
  likeness.bind (likeness.write recorder.database store.text) fun _ => likeness.pure _

theorem log (directory : String) (entry : HistoryEntry) : Leaves alike (Recorder.log directory entry) :=
  likeness.of_maintains fun origin =>
    Maintains.log (fun path => likeness.maintains (likeness.makeDirectory path) origin)
      (likeness.maintains (likeness.append _ _) origin)

/-- Recording an entry leaves the machine like it was, whether it succeeds or fails. -/
theorem record (recorder : Recorder) (entry : HistoryEntry) : Leaves alike (recorder.record entry) := by
  unfold Recorder.record
  apply likeness.bind (likeness.load recorder)
  intro loaded
  cases loaded with
  | error error => exact likeness.pure _
  | ok store =>
    dsimp only
    split
    · exact likeness.pure _
    · apply likeness.bind (likeness.save recorder _ _)
      intro saved
      cases saved with
      | error error => exact likeness.pure _
      | ok =>
        refine likeness.bind ?_ fun _ => likeness.pure _
        cases recorder.logs with
        | none => exact likeness.pure _
        | some directory => exact likeness.log directory _

/-- Opening the history leaves the machine like it was, whether it succeeds or fails. -/
theorem «open» (recorder : Recorder) : Leaves alike recorder.open := by
  unfold Recorder.open
  apply likeness.bind (likeness.makeDirectories _)
  intro made
  cases made with
  | error error => exact likeness.pure _
  | ok =>
    apply likeness.bind (likeness.load recorder)
    intro loaded
    cases loaded with
    | error error => exact likeness.pure _
    | ok store => exact likeness.save recorder _ store

/-- Whoever follows a run for a command leaves the machine like it was. -/
theorem observe (watch : Command.Watch) (note : Note) : Leaves alike (watch.observe note) := by
  unfold Command.Watch.observe
  cases note with
  | progress event => exact likeness.print _
  | retry => exact likeness.pure _
  | exchange request outcome elapsed =>
    cases watch.recorder with
    | none => exact likeness.pure _
    | some recorder => exact fun machine => likeness.record recorder _ machine

end Likeness

/-- A computation on a machine leaves the server alone. -/
def LeavesServer {α : Type} (computation : StateM Machine α) : Prop :=
  ∀ machine, SameServer (computation machine).2 machine

theorem leavesServer_record (recorder : Recorder) (entry : HistoryEntry) : LeavesServer (recorder.record entry) :=
  SameServer.likeness.record recorder entry

theorem leavesServer_observe (watch : Command.Watch) (note : Note) : LeavesServer (watch.observe note) :=
  SameServer.likeness.observe watch note

end Machine

/-- Carried out on machines that are alike, an interaction comes to the same result and leaves them alike, as long as
those who observe it leave them like they were. -/
theorem Interaction.perform_alike {α : Type} {alike : Machine → Machine → Prop} (likeness : Machine.Likeness alike)
    {observe watch : Note → StateM Machine Unit} (aside : ∀ note, Machine.Leaves alike (observe note))
    (apart : ∀ note, Machine.Leaves alike (watch note)) (interaction : Interaction α) {first second : Machine}
    (same : alike first second) :
    (interaction.perform observe first).1 = (interaction.perform watch second).1 ∧
      alike (interaction.perform observe first).2 (interaction.perform watch second).2 := by
  induction interaction generalizing first second with
  | done result => exact ⟨rfl, same⟩
  | call request resume ih =>
    obtain ⟨answers, machines⟩ := likeness.send same request
    have goesOn {observe : Note → StateM Machine Unit} (machine : Machine) :
        (call request resume).perform observe machine =
          (resume (machine.send request).1).perform observe (machine.send request).2 := rfl
    rw [goesOn, goesOn, answers]
    exact ih _ machines
  | wait millis resume ih =>
    have goesOn {observe : Note → StateM Machine Unit} (machine : Machine) :
        (wait millis resume).perform observe machine =
          (resume machine.canceled).perform observe (machine.waited millis) := rfl
    rw [goesOn, goesOn, likeness.canceled same]
    exact ih _ (likeness.waited same millis)
  | note content rest ih =>
    exact ih (likeness.trans (likeness.trans (aside content first) same) (likeness.symm (apart content second)))

/-- Carried out on two machines whose servers are at the same point, an interaction comes to the same result and sends
the same requests, as long as those who observe it leave the server alone. -/
theorem Interaction.perform_eq {α : Type} {observe watch : Note → StateM Machine Unit}
    (aside : ∀ note, Machine.LeavesServer (observe note)) (apart : ∀ note, Machine.LeavesServer (watch note))
    (interaction : Interaction α) {first second : Machine} (same : first.SameServer second) :
    (interaction.perform observe first).1 = (interaction.perform watch second).1 ∧
      (interaction.perform observe first).2.SameServer (interaction.perform watch second).2 :=
  interaction.perform_alike Machine.SameServer.likeness aside apart same

end Runbook

import Runbook.Command.Basic
import Runbook.Host.Machine
import Runbook.Proofs.Files.Tree

/-!
The files of a machine while computations use them: what holds before and after every single service holds before and
after a computation made of services, and a file keeps its text while it is other files that are written.
-/

namespace Runbook.Machine

open FileTree

variable {α β : Type} {kept : Machine → Prop}

/-- The result of a computation on a machine, and the machine after it. -/
abbrev run (machine : Machine) (computation : StateM Machine α) : α × Machine := computation machine

/-- A computation goes on with its first result, on the machine after it. -/
theorem run_bind {machine after : Machine} {first : StateM Machine α} {next : α → StateM Machine β} {value : α}
    (ran : machine.run first = (value, after)) : machine.run (first >>= next) = after.run (next value) := by
  change (next (machine.run first).1) (machine.run first).2 = _
  rw [ran]

theorem run_discard {machine after : Machine} {first : StateM Machine α} {value : α}
    (ran : machine.run first = (value, after)) : machine.run (discard first) = ((), after) := by
  change ((), (machine.run first).2) = _
  rw [ran]

/-- A property of computations that every result has, and that two computations one after the other have when both do. -/
structure Composes (holds : {α : Type} → StateM Machine α → Prop) : Prop where
  pure {α : Type} (value : α) : holds (Pure.pure value : StateM Machine α)
  bind {α β : Type} {computation : StateM Machine α} {next : α → StateM Machine β} (first : holds computation)
    (further : ∀ value, holds (next value)) : holds (computation >>= next)

namespace Composes

variable {holds : {α : Type} → StateM Machine α → Prop} (composes : Composes holds)
  (made : ∀ path, holds (Files.makeDirectory path : StateM Machine _))
  (looked : ∀ path, holds (Files.isDirectory path : StateM Machine _))
include composes

theorem unlessDirectory (looked : ∀ path, holds (Files.isDirectory path : StateM Machine _)) (path : String)
    (error : FileError) : holds (Files.unlessDirectory path error : StateM Machine _) :=
  composes.bind (looked path) fun _ => composes.pure _

include made looked

/-- Directories are made one by one below each other, and any may fail to be made. -/
theorem makeBelow (path : String) (parents : List String) :
    holds (Files.makeBelow path parents : StateM Machine _) := by
  induction parents generalizing path with
  | nil =>
    apply composes.bind (made path)
    intro result
    cases result with
    | ok => exact composes.pure _
    | error error => exact composes.unlessDirectory looked path error
  | cons parent higher ih =>
    apply composes.bind (made path)
    intro result
    split
    · exact composes.pure _
    · apply composes.bind (ih parent)
      intro above
      cases above with
      | error error => exact composes.pure _
      | ok =>
        apply composes.bind (made path)
        intro again
        cases again with
        | ok => exact composes.pure _
        | error error => exact composes.unlessDirectory looked path error
    · exact composes.unlessDirectory looked path _

theorem makeDirectories (path : String) : holds (Files.makeDirectories path : StateM Machine _) := by
  unfold Files.makeDirectories
  split
  · exact composes.pure _
  · exact composes.makeBelow made looked path _

end Composes

/-- What holds of a machine also holds of it after a computation. -/
def Maintains (kept : Machine → Prop) (computation : StateM Machine α) : Prop :=
  ∀ machine, kept machine → kept (computation machine).2

namespace Maintains

theorem pure (value : α) : Maintains kept (Pure.pure value) := fun _ holds => holds

theorem bind {computation : StateM Machine α} {next : α → StateM Machine β} (first : Maintains kept computation)
    (further : ∀ value, Maintains kept (next value)) : Maintains kept (computation >>= next) := fun machine holds =>
  further _ _ (first machine holds)

theorem discard {computation : StateM Machine α} (first : Maintains kept computation) :
    Maintains kept (Functor.discard computation) := fun machine holds => first machine holds

theorem composes : Composes (Maintains kept) := ⟨pure, bind⟩

/-- Making a directory below others, of which any may fail to be made, maintains what making each of them does. -/
theorem makeDirectories (made : ∀ path, Maintains kept (Files.makeDirectory path)) (path : String) :
    Maintains kept (Files.makeDirectories path) :=
  composes.makeDirectories made (fun _ _ holds => holds) path

end Maintains

/-- A change of the files that succeeds changes nothing else. -/
theorem change_of_ok {machine : Machine} {step : FileTree → Place → Except FileError FileTree} {later : FileTree}
    (stepped : step machine.tree machine.workingDirectory = .ok later) :
    machine.change step = (.ok (), { machine with tree := later }) := by
  unfold change
  rw [stepped]

/-- A change of the files that fails changes nothing. -/
theorem change_of_error {machine : Machine} {step : FileTree → Place → Except FileError FileTree} {error : FileError}
    (stepped : step machine.tree machine.workingDirectory = .error error) :
    machine.change step = (.error error, machine) := by
  unfold change
  rw [stepped]

/-- On a machine a pathname leads to a place where a file with a text stands. -/
structure HasText (path : String) (place : Place) (content : String) (machine : Machine) : Prop where
  located : machine.tree.place? machine.workingDirectory path = .ok place
  above : machine.tree.checkAbove place = .ok ()
  held : machine.tree.entry? place = some (.file (some content))

namespace HasText

variable {machine : Machine} {path content text : String} {place : Place}

/-- The root is a directory, so no file stands there. -/
theorem named (has : machine.HasText path place content) : place ≠ [] := by
  rintro rfl
  cases has.held

theorem readText (has : machine.HasText path place content) :
    machine.run (Files.readText path) = (.ok content, machine) := by
  have read : machine.tree.readText machine.workingDirectory path = .ok content := by
    simp [FileTree.readText, find?, has.located, has.held, bind, Except.bind, Pure.pure, Except.pure]
  exact congrArg (·, machine) read

/-- A file whose directory is kept can be found again, with the text that stands there then. -/
theorem of_covers {later : FileTree} (has : machine.HasText path place content) (covers : later.Covers machine.tree)
    (held : later.entry? place = some (.file (some text))) :
    HasText path place text { machine with tree := later } :=
  ⟨covers.place?_eq has.located, covers.checkAbove_eq has.above, held⟩

/-- A file that is there gets another text. -/
theorem write_eq (has : machine.HasText path place content) (text : String) :
    machine.run (Files.write path text) =
      (.ok (), { machine with tree := machine.tree.put place (.file (some text)) }) := by
  have written : machine.tree.write machine.workingDirectory path text =
      .ok (machine.tree.put place (.file (some text))) := by
    simp [FileTree.write, update, has.located, has.above, has.held, bind, Except.bind, Pure.pure, Except.pure]
  exact change_of_ok written

theorem put (has : machine.HasText path place content) (text : String) :
    HasText path place text { machine with tree := machine.tree.put place (.file (some text)) } := by
  have free : machine.tree.entry? place ≠ some .directory := by simp [has.held]
  exact has.of_covers (covers_put free) (entry?_put_self has.named)

/-- A file that has been written is there. -/
theorem of_write {after : Machine} (written : machine.run (Files.write path text) = (.ok (), after)) :
    ∃ place, after.HasText path place text := by
  cases stepped : machine.tree.write machine.workingDirectory path text with
  | error error =>
    have failed : machine.run (Files.write path text) = (.error error, machine) := change_of_error stepped
    rw [failed] at written
    cases written
  | ok later =>
    have made : machine.run (Files.write path text) = (.ok (), { machine with tree := later }) := change_of_ok stepped
    obtain ⟨place, _, located, above, free, rfl⟩ := exists_of_update stepped
    have named : place ≠ [] := by
      rintro rfl
      exact free rfl
    rw [made] at written
    cases written
    exact ⟨place, (covers_put free).place?_eq located, (covers_put free).checkAbove_eq above, entry?_put_self named⟩

/-- A change of the files that keeps directories and the file itself maintains that the file is there. -/
theorem maintains_change {step : FileTree → Place → Except FileError FileTree}
    (grows : ∀ tree workingDirectory later, step tree workingDirectory = .ok later →
      ∃ other entry, tree.entry? other ≠ some .directory ∧
        (other ≠ place ∨ tree.entry? other = none) ∧ later = tree.put other entry) :
    Maintains (HasText path place content) (Machine.change step) := by
  intro machine has
  unfold change
  cases stepped : step machine.tree machine.workingDirectory with
  | error error => exact has
  | ok later =>
    obtain ⟨other, entry, free, apart, rfl⟩ := grows _ _ _ stepped
    have different : place ≠ other := by
      rcases apart with different | missing
      · exact different.symm
      · intro same
        rw [← same, has.held] at missing
        cases missing
    exact has.of_covers (covers_put free) ((entry?_put_ne different).trans has.held)

theorem maintains_makeDirectory (other : String) :
    Maintains (HasText path place content) (Files.makeDirectory other) := by
  intro machine has
  refine maintains_change (fun tree workingDirectory later made => ?_) machine has
  obtain ⟨place, -, -, missing, rfl⟩ := exists_of_makeDirectory made
  exact ⟨place, .directory, by simp [missing], .inr missing, rfl⟩

/-- A file keeps its text while a text is added to a file of another name. -/
theorem maintains_append {other : String}
    (apart : ∀ (tree : FileTree) workingDirectory, tree.place? workingDirectory other ≠ .ok place) :
    Maintains (HasText path place content) (Files.append other text) := by
  intro machine has
  refine maintains_change (fun tree workingDirectory later appended => ?_) machine has
  obtain ⟨found, held, located, -, free, rfl⟩ := exists_of_update appended
  refine ⟨found, .file (held.map (· ++ text)), free, .inl ?_, rfl⟩
  rintro rfl
  exact apart tree workingDirectory located

end HasText
end Runbook.Machine

/-!
Computations that only read a machine: the settings, the configuration and the scenarios are looked up without a change
to it. Where scenarios are loaded from a pathname, something is there.
-/

namespace Runbook

namespace Machine

variable {α β : Type}

/-- A computation reads a machine and leaves it as it is. -/
def Reads (computation : StateM Machine α) : Prop :=
  ∀ machine : Machine, (machine.run computation).2 = machine

namespace Reads

theorem pure (value : α) : Reads (Pure.pure value) := fun _ => rfl

/-- What comes behind a computation that only reads goes on with its result, on the same machine. -/
theorem run_bind {computation : StateM Machine α} (reads : Reads computation) (next : α → StateM Machine β)
    (machine : Machine) : machine.run (computation >>= next) = machine.run (next (machine.run computation).1) :=
  Machine.run_bind (Prod.ext rfl (reads machine))

theorem bind {computation : StateM Machine α} {next : α → StateM Machine β} (first : Reads computation)
    (further : ∀ value, Reads (next value)) : Reads (computation >>= next) := by
  intro machine
  rw [first.run_bind]
  exact further _ machine

theorem isFile (path : String) : Reads (Files.isFile path) := fun _ => rfl

theorem isDirectory (path : String) : Reads (Files.isDirectory path) := fun _ => rfl

theorem isThere (path : String) : Reads (Files.isThere path) := fun _ => rfl

theorem readText (path : String) : Reads (Files.readText path) := fun _ => rfl

theorem names (path : String) : Reads (Files.names path) := fun _ => rfl

theorem workingDirectory : Reads Host.workingDirectory := fun _ => rfl

theorem isTerminal : Reads Host.isTerminal := fun _ => rfl

theorem setting? (name : String) : Reads (Host.setting? name) := fun _ => rfl

end Reads

/-- A file that can be read is there. -/
theorem isThere_of_readText {machine : Machine} {path text : String}
    (read : (machine.run (Files.readText path)).1 = .ok text) : (machine.run (Files.isThere path)).1 = true := by
  obtain ⟨entry, found, -⟩ := bind_eq_ok_iff.mp read
  show ((machine.tree.find? machine.workingDirectory path).map FileEntry.kind).toOption.isSome = true
  rw [found]
  rfl

end Machine

open Machine

namespace Scenario

theorem reads_loadFile (path : String) : Reads (loadFile path) := by
  unfold loadFile
  split
  · exact .pure _
  · apply (Reads.readText path).bind
    intro text
    split <;> exact .pure _

theorem reads_loadFiles (paths : List String) : Reads (loadFiles paths) := by
  induction paths with
  | nil => exact .pure _
  | cons path rest ih =>
    apply (reads_loadFile path).bind
    intro loaded
    split
    · exact .pure _
    · exact ih.bind fun _ => .pure _

theorem reads_listedFiles (directory : String) (names : List String) : Reads (listedFiles directory names) := by
  induction names with
  | nil => exact .pure _
  | cons name rest ih =>
    apply ih.bind
    intro more
    cases isListed name with
    | false => exact .pure _
    | true => exact (Reads.isFile _).bind fun _ => .pure _

theorem reads_loadDirectory (directory : String) : Reads (loadDirectory directory) := by
  apply (Reads.names directory).bind
  intro names
  split
  · exact .pure _
  · exact (reads_listedFiles directory _).bind fun _ => reads_loadFiles _

/-- Scenarios are loaded without a change to the machine. -/
theorem reads_load (path : String) : Reads (load path : StateM Machine _) := by
  apply (Reads.isDirectory path).bind
  intro isDirectory
  split
  · exact reads_loadDirectory path
  · exact (reads_loadFile path).bind fun _ => .pure _

/-- Where scenarios are loaded from a pathname, it leads to a directory or to a file that can be read. -/
theorem isThere_of_load {machine : Machine} {path : String} {scenarios : List Scenario}
    (loaded : (machine.run (load path)).1 = .ok scenarios) : (machine.run (Files.isThere path)).1 = true := by
  unfold load at loaded
  rw [(Reads.isDirectory path).run_bind] at loaded
  cases directory : (machine.run (Files.isDirectory path)).1 with
  | true =>
    have kind : ((machine.tree.find? machine.workingDirectory path).map FileEntry.kind).toOption = some .directory :=
      beq_iff_eq.mp directory
    show ((machine.tree.find? machine.workingDirectory path).map FileEntry.kind).toOption.isSome = true
    rw [kind]
    rfl
  | false =>
    rw [directory, if_neg Bool.false_ne_true, (reads_loadFile path).run_bind] at loaded
    cases file : (machine.run (loadFile path)).1 with
    | error failure =>
      rw [file] at loaded
      cases loaded
    | ok scenario =>
      unfold loadFile at file
      split at file
      · cases file
      · rw [(Reads.readText path).run_bind] at file
        cases read : (machine.run (Files.readText path)).1 with
        | error cause =>
          rw [read] at file
          cases file
        | ok text => exact isThere_of_readText read

end Scenario

namespace Project

theorem reads_firstFile? (paths : List String) : Reads (firstFile? paths) := by
  induction paths with
  | nil => exact .pure _
  | cons path rest ih =>
    apply (Reads.isFile path).bind
    intro isFile
    split
    · exact .pure _
    · exact ih

theorem reads_discover? (start : String) : Reads (discover? start) := reads_firstFile? _

theorem reads_load (path : String) : Reads (load path) := by
  apply (Reads.readText path).bind
  intro text
  split
  · exact .pure _
  · split <;> exact .pure _

end Project

namespace Command

theorem reads_settings (names : List String) : Reads (settings names) := by
  induction names with
  | nil => exact .pure _
  | cons name rest ih =>
    apply (Reads.setting? name).bind
    intro value
    exact ih.bind fun _ => .pure _

theorem Workspace.reads_ofFile (isChecked : Bool) (path : String) : Reads (ofFile isChecked path) := by
  apply (Project.reads_load path).bind
  intro loaded
  split
  · exact .pure _
  · split <;> exact .pure _

/-- The configuration is looked up without a change to the machine. -/
theorem Workspace.reads_load (explicit : Option String) (isChecked : Bool) : Reads (load explicit isChecked) := by
  cases explicit with
  | some path => exact reads_ofFile isChecked path
  | none =>
    apply Reads.workingDirectory.bind
    intro start
    apply (Project.reads_discover? start).bind
    intro path
    cases path with
    | some path => exact reads_ofFile isChecked path
    | none => exact .pure _

theorem Workspace.reads_historyDirectory : Reads historyDirectory := by
  apply (Reads.setting? "KEST_HOME").bind
  intro directory
  split
  · exact .pure _
  · apply (Reads.setting? "HOME").bind
    intro home
    split <;> exact .pure _

theorem Workspace.reads_recorder (workspace : Workspace) : Reads workspace.recorder :=
  (reads_historyDirectory.bind fun _ => .pure _).bind fun _ => .pure _

end Command

end Runbook

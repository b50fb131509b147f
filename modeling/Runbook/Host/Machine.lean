import Runbook.Files.Tree
import Runbook.Host.Basic

/-!
A machine as a value: its files, its settings, its clock, an executor that answers requests, and the texts it shows.
Computations side by side are carried out one after another.
-/

namespace Runbook

/-- A machine between two services. -/
structure Machine where
  tree : FileTree := {}
  workingDirectory : Place := []
  settings : Dict String := []
  executor : Interaction.Executor := fun _ _ => none
  /-- The requests sent so far. -/
  requests : List Request := []
  clock : Time.Instant := ⟨0, 0⟩
  /-- The number of draws so far. -/
  drawn : Nat := 0
  canceled : Bool := false
  output : String := ""
  errors : String := ""

namespace Machine

/-- What comes back where the executor breaks down. -/
def broken : Interaction.Served := { outcome := .error { cause := "no answer" } }

/-- What comes back for a request, and the machine after it. -/
def send (request : Request) (machine : Machine) : Answer × Machine :=
  let served := (machine.executor machine.requests request).getD broken
  let canceled := machine.canceled || served.cancels
  (⟨served.outcome, served.elapsed, canceled⟩,
    { machine with
      requests := machine.requests ++ [request]
      clock := machine.clock.after served.elapsed
      canceled })

/-- A change of the files; the files stay as they are where it fails. -/
def change (step : FileTree → Place → Except FileError FileTree) (machine : Machine) :
    Except FileError Unit × Machine :=
  match step machine.tree machine.workingDirectory with
  | .ok tree => (.ok (), { machine with tree })
  | .error error => (.error error, machine)

/-- The working directory as a pathname. -/
def workingPath (machine : Machine) : String := "/" ++ "/".intercalate machine.workingDirectory

end Machine

instance : Files (StateM Machine) where
  kind? path machine :=
    (((machine.tree.find? machine.workingDirectory path).map FileEntry.kind).toOption, machine)
  readText path machine := (machine.tree.readText machine.workingDirectory path, machine)
  names path machine := (machine.tree.names machine.workingDirectory path, machine)
  makeDirectory path machine := machine.change fun tree place => tree.makeDirectory place path
  write path text machine := machine.change fun tree place => tree.write place path text
  append path text machine := machine.change fun tree place => tree.append place path text

instance : Host (StateM Machine) where
  workingDirectory machine := (machine.workingPath, machine)
  setting? name machine := (machine.settings.find? name, machine)
  now machine := (machine.clock, machine)
  draws machine :=
    (Template.Draws.part ⟨machine.clock, 0⟩ machine.drawn, { machine with drawn := machine.drawn + 1 })
  isTerminal machine := (false, machine)
  print text machine := ((), { machine with output := machine.output ++ text })
  complain text machine := ((), { machine with errors := machine.errors ++ text })
  send := Machine.send
  pause millis machine := (machine.canceled, { machine with clock := machine.clock.after millis })

instance : Crew (StateM Machine) where
  together _ computations := computations.mapM id

end Runbook

import Runbook.Command.Adhoc
import Runbook.Command.Conduct
import Runbook.Command.Record
import Runbook.Command.Usage
import Runbook.Scenario.Load

/-!
Carrying out a command line on a machine.
-/

namespace Runbook.Command

/-- How a command ended. -/
inductive Exit where
  | success
  /-- The command failed, or what it ran did not pass. -/
  | failure
  /-- The command line does not fit. -/
  | misuse
deriving DecidableEq, Repr

/-- The exit status of a command. -/
def Exit.status : Exit → Nat
  | success => 0
  | failure => 1
  | misuse => 2

/-- The exit of a command that carried out what it was asked for. -/
def Exit.ofBool (isGood : Bool) : Exit := if isGood then success else failure

/-- The settings that switches take values from. -/
def settingNames : List String := ["KEST_ENV", "KEST_CONSOLE_URL"]

section

variable {m : Type → Type} [Monad m] [Host m]

/-- The settings that there are. -/
def settings : List String → m (Dict String)
  | [] => return []
  | name :: rest => do
    let value ← Host.setting? name
    let more ← settings rest
    return (value.map fun value => (name, value)).toList ++ more

/-- The number of workers for scenarios that are carried out together. -/
def Grouping.workers (grouping : Grouping) (workspace : Workspace) : Nat :=
  if grouping.parallel then grouping.jobs.getD workspace.config.defaults.jobs else 1

/-- The scenarios at a pathname are carried out. -/
def run [Crew m] (workspace : Workspace) (path : String) (grouping : Grouping) (execution : Execution) :
    m (Except Failure Bool) := do
  if !(← Files.isThere path) then return .error { message := "Path does not exist: " ++ path }
  match ← Scenario.load path with
  | .error failure => return .error failure
  | .ok [] => return .error { message := "No scenarios found in " ++ path }
  | .ok scenarios => conduct workspace execution (grouping.workers workspace) grouping.failFast scenarios

/-- A single request is carried out. -/
def request [Crew m] (workspace : Workspace) (adhoc : Adhoc) (execution : Execution) :
    m (Except Failure Bool) :=
  match adhoc.scenario with
  | .error failure => return .error failure
  | .ok scenario => conduct workspace execution 1 false [scenario]

/-- The history is listed: that of the project, unless all is wanted. -/
def history (workspace : Workspace) (listing : Listing) : m (Except Failure Bool) := do
  match ← Workspace.openHistory with
  | .error failure => return .error failure
  | .ok recorder =>
    let filter : History.Filter := {
      limit := listing.limit
      project := if listing.everywhere then none else workspace.project
      method := listing.method
      urlPart := listing.urlPart }
    match ← recorder.query filter with
    | .error error => return .error error.failure
    | .ok entries =>
      Host.print (listingText entries)
      return .ok true

/-- An entry of the history is shown. -/
def inspect (id : Int) : m (Except Failure Bool) := do
  match ← Workspace.openHistory with
  | .error failure => return .error failure
  | .ok recorder =>
    match ← recorder.get id with
    | .error error => return .error error.failure
    | .ok entry =>
      Host.print (entryText entry)
      return .ok true

/-- A recorded request is sent again with some headers given other values. -/
def replay (workspace : Workspace) (id : Int) (headers : List String) : m (Except Failure Bool) := do
  match ← Workspace.openHistory with
  | .error failure => return .error failure
  | .ok recorder =>
    match readHeaders headers with
    | .error failure => return .error failure
    | .ok overrides =>
      match ← recorder.replay id overrides workspace.config.defaults.timeout with
      | .error error => return .error error.failure
      | .ok entry =>
        Host.print ("Replayed #" ++ toString id ++ " as #" ++ toString entry.id ++ "\n" ++ entryText entry)
        return .ok entry.error.isNone

/-- The environments are listed. -/
def listEnvironments (workspace : Workspace) : m (Except Failure Bool) := do
  let environments := workspace.config.targets.map fun (name, target) => (name, target.baseUrl)
  Host.print (environmentsText workspace.config.active environments)
  return .ok true

/-- An environment becomes the active one. -/
def useEnvironment (workspace : Workspace) (name : String) : m (Except Failure Bool) := do
  match workspace.configPath with
  | none =>
    let path := Project.directoryName ++ "/" ++ Project.configName
    return .error { message := "no " ++ path ++ " found in this directory or its parents" }
  | some path =>
    match workspace.config.use name with
    | .error error => return .error { message := error.message }
    | .ok config =>
      match ← Project.save config path with
      | .error failure => return .error failure
      | .ok () =>
        Host.print ("Active environment: " ++ name ++ "\n")
        return .ok true

/-- A task is carried out in a workspace. -/
def Task.perform [Crew m] (workspace : Workspace) : Task → m (Except Failure Bool)
  | run path grouping execution => Command.run workspace path grouping execution
  | request adhoc execution => Command.request workspace adhoc execution
  | history listing => Command.history workspace listing
  | inspect id => Command.inspect id
  | replay id headers => Command.replay workspace id headers
  | listEnvironments => Command.listEnvironments workspace
  | useEnvironment name => Command.useEnvironment workspace name

/-- The active environment has to be defined, unless the task is to change it. -/
def Task.checksActive : Task → Bool
  | useEnvironment _ => false
  | _ => true

/-- An invocation is carried out. -/
def Invocation.perform [Crew m] (invocation : Invocation) : m (Except Failure Bool) := do
  match ← Workspace.load invocation.config invocation.task.checksActive with
  | .error failure => return .error failure
  | .ok workspace => invocation.task.perform workspace

/-- What is said instead of carrying out a command line. -/
def tellStop (settings : String → Option String) : Stop → m Exit
  | .help verb => do
    Host.print (Usage.help settings verb)
    return .success
  | .version => do
    Host.print Usage.version
    return .success
  | .misuse verb => do
    Host.complain (Usage.misuse verb)
    return .misuse

/-- The exit of a command that came to a result. Why it failed is told. -/
def tellResult : Except Failure Bool → m Exit
  | .ok isGood => return .ofBool isGood
  | .error failure => do
    Host.complain ("Error: " ++ failure.text ++ "\n")
    return .failure

/-- A command line is carried out. -/
def perform [Crew m] (words : List String) : m Exit := do
  let held : Dict String ← settings settingNames
  match Invocation.ofWords held.find? words with
  | .error stop => tellStop held.find? stop
  | .ok invocation => tellResult (← invocation.perform)

end

end Runbook.Command

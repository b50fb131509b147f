import Runbook.Config.Project
import Runbook.History.Replay

/-!
The surroundings of a task: the configuration, the project that it belongs to, and the history.
-/

namespace Runbook.Command

/-- The configuration, with its file and the directory of its project where there is one. -/
structure Workspace where
  config : Config := {}
  configPath : Option String := none
  project : Option String := none
deriving DecidableEq, Repr

namespace Workspace

/-- The environment to run against. Where none is selected or defined, a nameless one serves absolute URLs. -/
def environment (workspace : Workspace) (selected : Option String) : Except EnvironmentError Environment :=
  if selected.isNone && workspace.config.targets.isEmpty then .ok { name := "default" }
  else workspace.config.activeEnvironment selected

variable {m : Type → Type} [Monad m] [Host m]

/-- The workspace of a configuration file, whose active environment is checked where that is wanted. -/
def ofFile (isChecked : Bool) (path : String) : m (Except Failure Workspace) := do
  match ← Project.load path with
  | .error failure => return .error failure
  | .ok config =>
    let workspace : Workspace := { config, configPath := some path, project := Project.root? path }
    match config.check with
    | .ok () => return .ok workspace
    | .error error =>
      return if isChecked then .error (.within ("Invalid config " ++ path) { message := error.message })
        else .ok workspace

/-- The workspace of the given configuration file, or else of the nearest one. Without one everything is standard. -/
def load (explicit : Option String) (isChecked : Bool) : m (Except Failure Workspace) := do
  let path ← match explicit with
    | some path => pure (some path)
    | none => Project.discover? (← Host.workingDirectory)
  match path with
  | some path => ofFile isChecked path
  | none => return .ok {}

/-- The directory that keeps the history. -/
def historyDirectory : m String := do
  match ← Host.setting? "KEST_HOME" with
  | some directory => return directory
  | none =>
    match ← Host.setting? "HOME" with
    | some home => return if home.isEmpty then Project.directoryName else Pathname.join home Project.directoryName
    | none => return Project.directoryName

/-- The recorder of the history without log files. -/
def history : m History.Recorder := return { database := Pathname.join (← historyDirectory) Project.historyName }

/-- The recorder of the history with the log files of the project. -/
def recorder (workspace : Workspace) : m History.Recorder := do
  let logs := workspace.project.map fun project =>
    Pathname.join (Pathname.join project Project.directoryName) Project.logsName
  return { ← history with logs }

/-- The recorder for what is sent, if the history can be opened; nothing else depends on it. -/
def recorder? (workspace : Workspace) : m (Option History.Recorder) := do
  let recorder : History.Recorder ← workspace.recorder
  return if (← recorder.open).isOk then some recorder else none

/-- The recorder of a history that has to be there. -/
def openHistory : m (Except Failure History.Recorder) := do
  let recorder : History.Recorder ← history
  return match ← recorder.open with
    | .ok () => .ok recorder
    | .error error => .error (.within ("Failed to open history at " ++ recorder.database) error.failure)

end Workspace
end Runbook.Command

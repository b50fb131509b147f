import Runbook.Config.Document
import Runbook.Failure
import Runbook.Files.Basic

/-!
Where a project keeps its configuration, and reading and writing it there.
-/

namespace Runbook.Project

/-- The directory of a project's configuration. -/
def directoryName : String := ".kest"

/-- The file of a project's configuration. -/
def configName : String := "config.yaml"

/-- The directory of a project's log files. -/
def logsName : String := "logs"

/-- The file of the history store. -/
def historyName : String := "history.db"

/-- The project that a configuration file belongs to: the directory around the one it is in. -/
def root? (configPath : String) : Option String := (Pathname.parent? configPath).bind Pathname.parent?

/-- The pathname of the configuration of a directory. -/
def configPath (directory : String) : String :=
  Pathname.join (Pathname.join directory directoryName) configName

variable {m : Type → Type} [Monad m] [Files m]

/-- The first of some pathnames that leads to a file. -/
def firstFile? : List String → m (Option String)
  | [] => return none
  | path :: rest => do if ← Files.isFile path then return some path else firstFile? rest

/-- The nearest configuration file at or above a pathname. -/
def discover? (start : String) : m (Option String) :=
  firstFile? ((Pathname.ancestors start).map configPath)

/-- The configuration in a file. -/
def load (path : String) : m (Except Failure Config) := do
  match ← Files.readText path with
  | .error cause => return .error ⟨"Failed to read config file: " ++ path, [cause.message]⟩
  | .ok text =>
    match Config.read? text with
    | some config => return .ok config
    | none => return .error { message := "Failed to parse config file: " ++ path }

/-- The directory around a file is made where it is missing. -/
def makeAround (path : String) : m (Except Failure Unit) := do
  match Pathname.parent? path with
  | none => return .ok ()
  | some directory =>
    return (← Files.makeDirectories directory).mapError fun cause =>
      ⟨"Failed to create directory: " ++ directory, [cause.message]⟩

/-- A configuration is written to a file, whose directory is made where it is missing. -/
def save (config : Config) (path : String) : m (Except Failure Unit) := do
  match ← makeAround path with
  | .error failure => return .error failure
  | .ok () =>
    return (← Files.write path config.text).mapError fun cause =>
      ⟨"Failed to write config file: " ++ path, [cause.message]⟩

end Runbook.Project

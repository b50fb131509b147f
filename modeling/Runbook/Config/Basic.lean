import Runbook.Environment

/-!
The configuration of a project: the environments that its scenarios can run against, which of them is active, and what
applies where a command says nothing else.
-/

namespace Runbook

namespace Config

/-- An environment as the configuration defines it. -/
structure Target where
  baseUrl : Option String := none
  bindings : Dict String := []
  headers : Dict String := []
deriving DecidableEq, Repr

/-- What applies where a command says nothing else. -/
structure Defaults where
  /-- The timeout of a step in milliseconds. -/
  timeout : Nat := 30000
  /-- The number of runs at a time. -/
  jobs : Nat := 4
deriving DecidableEq, Repr

/-- The console that finished runs are delivered to. -/
structure Console where
  url : Option String := none
  token : Option String := none
deriving DecidableEq, Repr

end Config

/-- The configuration of a project. -/
structure Config where
  active : Option String := none
  targets : Dict Config.Target := []
  defaults : Config.Defaults := {}
  console : Config.Console := {}
deriving DecidableEq, Repr

namespace Config

/-- The names of the environments in increasing order. -/
def names (config : Config) : List String := Dict.keys config.targets

/-- The environment of a name. -/
def environment (config : Config) (name : String) : Except EnvironmentError Environment :=
  match Dict.find? name config.targets with
  | none => .error (.unknown name config.names)
  | some target => .ok {
      name
      baseUrl := target.baseUrl
      bindings := target.bindings
      headers := target.headers
      isActive := config.active == some name }

/-- The environment to run against: the selected one, else the active one, else the only one. -/
def activeEnvironment (config : Config) (selected : Option String) : Except EnvironmentError Environment :=
  match selected.or config.active, config.targets with
  | some name, _ => config.environment name
  | none, [(name, _)] => config.environment name
  | none, _ => .error .noneSelected

/-- The check that the active environment is defined. -/
def check (config : Config) : Except EnvironmentError Unit :=
  match config.active with
  | some name => (config.environment name).map fun _ => ()
  | none => .ok ()

/-- The configuration with another active environment, which has to be defined. -/
def use (config : Config) (name : String) : Except EnvironmentError Config :=
  (config.environment name).map fun _ => { config with active := some name }

end Config
end Runbook

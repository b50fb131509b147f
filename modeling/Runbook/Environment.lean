import Runbook.Scenario.Basic
import Runbook.Url.Basic

/-!
The check of an environment before a run.
-/

namespace Runbook

/-- What can be wrong with an environment. -/
inductive EnvironmentError where
  | unknown (name : String) (known : List String)
  | noneSelected
  | invalidBaseUrl (name baseUrl reason : String)
deriving DecidableEq, Repr

/-- The wording of an environment error. -/
def EnvironmentError.message : EnvironmentError → String
  | unknown name known =>
    "environment '" ++ name ++ "' is not defined (known: " ++ ", ".intercalate known ++ ")"
  | noneSelected => "no active environment selected; set active_env or pass --env"
  | invalidBaseUrl name baseUrl reason =>
    "environment '" ++ name ++ "' has invalid base_url '" ++ baseUrl ++ "': " ++ reason

/-- The check of an environment: its base, if it has one, is a web URL. -/
def Environment.check (environment : Environment) : Except EnvironmentError Unit :=
  match environment.baseUrl with
  | none => .ok ()
  | some base =>
    match Url.parse base with
    | .error error => .error (.invalidBaseUrl environment.name base error.message)
    | .ok url =>
      if url.scheme == "http" || url.scheme == "https" then .ok ()
      else .error (.invalidBaseUrl environment.name base ("unsupported scheme '" ++ url.scheme ++ "'"))

end Runbook

import Runbook.Document.Encode
import Runbook.Failure
import Runbook.Host.Basic
import Runbook.Json.Printer
import Runbook.Report.Console
import Runbook.Yaml.Printer

/-!
Report files: the record of a run in a file named for its scenario, the time and its identifier.
-/

namespace Runbook.Report

/-! The plain text of a run -/

/-- The lines of a step. -/
def stepLines (number : Nat) (result : StepResult) : List String :=
  ["  " ++ toString number ++ ". " ++ result.name ++ " (" ++ result.status.name ++ ")"] ++
    result.request.toList.map (fun request => "     Request: " ++ request.method ++ " " ++ request.url) ++
    result.response.toList.map (fun response => "     Response: " ++ toString response.status) ++
    result.error.toList.map (fun error => "     Error: " ++ error) ++
    result.failures.map (fun failure => "     Assertion failed: " ++ failure) ++
    ["     Duration: " ++ toString result.millis ++ " ms"]

/-- The lines of a run. -/
def lines (run : Run) : List String :=
  ["Scenario: " ++ run.scenarioName, "Run: " ++ run.id, "Environment: " ++ run.environment,
    "Status: " ++ run.status.name ++ cancelMark run, "Duration: " ++ toString run.millis ++ " ms", "", "Steps:"] ++
    (run.results.zipIdx 1).flatMap fun (result, number) => stepLines number result

/-- The text of a run; every line is ended. -/
def text (run : Run) : String := String.join ((lines run).map (· ++ "\n"))

/-! Report files -/

/-- The notation of a report file. -/
inductive Format where
  | json
  | yaml
  | text
deriving DecidableEq, Repr

/-- The ending of the name of a report file. -/
def Format.extension : Format → String
  | json => "json"
  | yaml => "yaml"
  | text => "txt"

/-- The text of a run in a notation. -/
def content (run : Run) : Format → String
  | .json => run.toJson.pretty
  | .yaml => Yaml.print run.toJson
  | .text => Report.text run

/-- A scenario name as a part of a file name. -/
def nameSlug (name : String) : String := name.map fun c => if c == ' ' || c == '/' then '_' else c

/-- The number of characters of an identifier that a file name has. -/
def shortLength : Nat := 8

/-- The name of the report file of a run at a second. -/
def fileName (run : Run) (format : Format) (second : Int) : String :=
  nameSlug run.scenarioName ++ "-" ++ toString second ++ "-" ++ String.ofList (run.id.toList.take shortLength) ++ "." ++
    format.extension

variable {m : Type → Type} [Monad m] [Host m]

/-- A run is saved in a directory, which is made where it is missing. The result is the pathname of the file. -/
def save (run : Run) (directory : String) (format : Format) : m (Except Failure String) := do
  let made ← if ← Files.isThere directory then pure (.ok ()) else Files.makeDirectories directory
  match made with
  | .error cause => return .error ⟨"Failed to create report dir " ++ directory, [cause.message]⟩
  | .ok () =>
    let path := Pathname.join directory (fileName run format (← Host.now).seconds)
    match ← Files.write path (content run format) with
    | .error cause => return .error ⟨"Failed to write report " ++ path, [cause.message]⟩
    | .ok () => return .ok path

end Runbook.Report

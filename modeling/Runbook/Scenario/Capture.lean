import Runbook.Assertion.Evaluate
import Runbook.Scenario.Basic
import Runbook.Scenario.Error

/-!
Captures: which ones are well formed, and the value that one takes out of a response.
-/

namespace Runbook.Capture

open Runbook.Text

/-- What a path that leads to a header starts with. -/
def headerMark : String := "header."

/-- The header name that a path leads to, if it leads to a header. -/
def headerName? (path : String) : Option String :=
  (afterFront? headerMark.toList path.toList).map String.ofList

/-- A name of letters, digits and underscores that does not start with a digit. -/
def isIdentifier (name : String) : Bool :=
  match name.toList with
  | c :: rest => (isLetter c || c == '_') && rest.all fun c => isLetter c || isDigit c || c == '_'
  | [] => false

/-- The check of a capture: its name is an identifier, and its path leads to a header or can be read. -/
def check (name path : String) : Except Defect Unit :=
  if !isIdentifier name then .error (.invalidCaptureName name)
  else if (trim path.toList).isEmpty then .error (.invalidCapture (name ++ ": <empty path>"))
  else if (headerName? path).isSome then .ok ()
  else
    match Path.parse path with
    | .ok _ => .ok ()
    | .error error => .error (.invalidCapture error.message)

/-- The value that a path takes out of a response. -/
def take (json : Option Json) (headers : Dict String) (path : String) : Except PathError Json :=
  match headerName? path with
  | some name =>
    match headerValue? headers name with
    | some value => .ok (.string value)
    | none => .error ⟨path, (Assertion.NoValue.missingHeader name).message⟩
  | none =>
    match json with
    | some body => Path.extract body path
    | none => .error ⟨path, Assertion.NoValue.notJson.message⟩

end Runbook.Capture

import Runbook.Assertion.Reader
import Runbook.Command.Invocation
import Runbook.Failure
import Runbook.Scenario.Basic
import Runbook.Scenario.Capture

/-!
The scenario of a single request that is written on the command line.
-/

namespace Runbook.Command

open Runbook.Text

/-- A text before and after the first occurrence of a character, without blanks around either. -/
def cutTrimmed? (separator : Char) (text : String) : Option (String × String) :=
  (cut? separator text.toList).map fun (first, second) => (String.ofList (trim first), String.ofList (trim second))

/-- A header as `Name: value`. -/
def readHeader (text : String) : Except Failure (String × String) :=
  match cutTrimmed? ':' text with
  | none => .error { message := "invalid header '" ++ text ++ "', expected 'Name: value'" }
  | some (name, value) =>
    if name.isEmpty then .error { message := "invalid header '" ++ text ++ "', empty name" }
    else .ok (name, value)

/-- Several headers; the last one of a name counts. -/
def readHeaders (texts : List String) : Except Failure (Dict String) := Dict.ofPairs <$> texts.mapM readHeader

/-- A capture as `name=path`. -/
def readCapture (text : String) : Except Failure Capture :=
  match cutTrimmed? '=' text with
  | none => .error { message := "invalid capture '" ++ text ++ "', expected name=path" }
  | some (name, path) =>
    match Capture.check name path with
    | .ok () => .ok { name, path }
    | .error defect => .error { message := "invalid capture '" ++ text ++ "': " ++ defect.message }

/-- An assertion. -/
def readAssertion (text : String) : Except Failure Assertion :=
  (Assertion.parse text).mapError fun fault => { message := "invalid assertion '" ++ text ++ "': " ++ fault.message }

/-- The scenario whose only step is the request. -/
def Adhoc.scenario (adhoc : Adhoc) : Except Failure Scenario := do
  let some method := Method.read? adhoc.method
    | throw { message := (Defect.invalidMethod adhoc.method).message }
  let headers ← readHeaders adhoc.headers
  let captures ← adhoc.captures.mapM readCapture
  let asserts ← adhoc.asserts.mapM readAssertion
  let step : Step := {
    id := "request"
    name := method.name ++ " " ++ adhoc.url
    method
    url := adhoc.url
    headers
    body := adhoc.body
    captures
    asserts }
  return { id := "request", name := "request", flow := .script [step] }

end Runbook.Command

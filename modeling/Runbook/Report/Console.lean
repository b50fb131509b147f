import Runbook.Progress.Event
import Runbook.Text.Blank

/-!
What a console shows, in colors: a line for each step that is done, and a table of all runs at the end.
-/

namespace Runbook.Report

open Runbook.Text

/-- A color or weight of terminal text. -/
inductive Ink where
  | red
  | green
  | yellow
  | dim
deriving DecidableEq, Repr

/-- The number that selects an ink. -/
def Ink.code : Ink → String
  | red => "31"
  | green => "32"
  | yellow => "33"
  | dim => "2"

/-- A text in an ink. -/
def Ink.apply (ink : Ink) (text : String) : String := "\x1b[" ++ ink.code ++ "m" ++ text ++ "\x1b[0m"

/-- A text in an ink where colors are wanted. -/
def paint (color : Bool) (ink : Ink) (text : String) : String := if color then ink.apply text else text

/-- The sign of a step status. -/
def badge (color : Bool) : StepStatus → String
  | .passed => paint color .green "✓"
  | .failed => paint color .red "✗"
  | .skipped => paint color .yellow "-"
  | .pending | .running => paint color .dim "…"

/-- The line for a step that is done, with its details below. Other events have none. -/
def stepLine? (color : Bool) : ProgressEvent → Option String
  | .step event =>
    if event.status.isTerminal then
      let details := event.details.map fun detail => "\n      " ++ paint color .red detail
      some ("  " ++ badge color event.status ++ " [" ++ event.scenario ++ "] " ++ event.name ++ " (" ++
        toString (event.millis.getD 0) ++ " ms)" ++ String.join details)
    else none
  | .done .. => none

/-- What is said after the status of a run that was canceled. -/
def cancelMark (run : Run) : String := if run.canceled then " (canceled)" else ""

/-- The lines of a step in the table: its row, then its error and its failed assertions. -/
def stepRows (color : Bool) (number : Nat) (result : StepResult) : List String :=
  ("  " ++ toString number ++ ". " ++ badge color result.status ++ " " ++ padRight 40 result.name ++ " " ++
    padLeft 7 result.status.name ++ " " ++ padLeft 6 (toString result.millis) ++ " ms") ::
    (result.error.toList ++ result.failures).map fun detail => "       " ++ paint color .red detail

/-- The lines of a run in the table. -/
def runRows (color : Bool) (run : Run) : List String :=
  let verdict := if run.passed then paint color .green "PASS" else paint color .red "FAIL"
  (verdict ++ " " ++ run.scenarioName ++ " [" ++ run.environment ++ "] (" ++ toString run.millis ++ " ms)" ++
    cancelMark run) ::
    (run.results.zipIdx 1).flatMap fun (result, number) => stepRows color number result

/-- The number of steps with a status in all runs. -/
def total (runs : List Run) (status : StepStatus) : Nat := runs.foldl (fun total run => total + run.count status) 0

/-- The last line of the table. -/
def totalsRow (color : Bool) (runs : List Run) (millis : Nat) : String :=
  "Summary: " ++ toString runs.length ++ " run(s), " ++
    paint color .green (toString (total runs .passed)) ++ " passed, " ++
    paint color .red (toString (total runs .failed)) ++ " failed, " ++
    paint color .yellow (toString (total runs .skipped)) ++ " skipped step(s), " ++ toString millis ++ " ms"

/-- The table of all runs and their totals; the given milliseconds are those of the whole. -/
def summary (color : Bool) (runs : List Run) (millis : Nat) : String :=
  "\n".intercalate (runs.flatMap (runRows color) ++ [totalsRow color runs millis])

end Runbook.Report

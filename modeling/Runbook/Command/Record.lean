import Runbook.History.Entry
import Runbook.Json.Printer
import Runbook.Report.Console
import Runbook.Text.Blank

/-!
What is shown of the history: a line for each entry, and one entry in full. Colors are always used.
-/

namespace Runbook.Command

open Runbook.Text Runbook.Report

/-- The status of an entry in the color that tells success from failure. -/
def statusMark (entry : HistoryEntry) : String :=
  match entry.status with
  | some status => (if status < 400 then Ink.green else Ink.red).apply (toString status)
  | none => Ink.red.apply "ERR"

/-- The line of an entry. -/
def entryLine (entry : HistoryEntry) : String :=
  let time := entry.timestamp.dateText "-" ++ " " ++ entry.timestamp.timeText ":"
  "#" ++ padRight 6 (toString entry.id) ++ " " ++ time ++ "  " ++ padRight 7 entry.method ++ " " ++
    padRight 60 entry.url ++ " " ++ statusMark entry ++ " " ++ padLeft 6 (toString entry.millis) ++ " ms"

/-- A body as it is shown: JSON on lines of its own. -/
def shownBody (body : String) : String := ((Json.parse? body).map Json.pretty).getD body

/-- The lines of headers after a sign. -/
def headerLines (sign : String) (headers : Dict String) : List String :=
  headers.map fun (name, value) => sign ++ " " ++ name ++ ": " ++ value

/-- The lines of a body after an empty one. -/
def bodyLines (body : Option String) : List String := (body.map fun body => "\n" ++ shownBody body).toList

/-- The lines that show what came back: the reason why nothing did, or the response. -/
def responseLines (entry : HistoryEntry) : List String :=
  match entry.error with
  | some error => ["\n" ++ Ink.red.apply ("Error: " ++ error)]
  | none =>
    (entry.status.map fun status => "\n< " ++ toString status).toList ++ headerLines "<" entry.responseHeaders ++
      bodyLines entry.responseBody

/-- An entry in full: its line, its project, the request and what came back. -/
def entryText (entry : HistoryEntry) : String :=
  let lines := [entryLine entry] ++ (entry.project.map ("Project: " ++ ·)).toList ++
    ["\n> " ++ entry.method ++ " " ++ entry.url] ++ headerLines ">" entry.requestHeaders ++
    bodyLines entry.requestBody ++ responseLines entry
  String.join (lines.map (· ++ "\n"))

/-- The lines of several entries. -/
def listingText (entries : List HistoryEntry) : String :=
  if entries.isEmpty then "No history records.\n"
  else String.join (entries.map fun entry => entryLine entry ++ "\n")

/-- The lines of the environments; a star marks the active one. -/
def environmentsText (active : Option String) (environments : List (String × Option String)) : String :=
  String.join <| environments.map fun (name, baseUrl) =>
    (if active == some name then "*" else " ") ++ " " ++ padRight 16 name ++ " " ++ baseUrl.getD "-" ++ "\n"

end Runbook.Command

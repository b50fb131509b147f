import Runbook.Json.Printer
import Runbook.Json.Reader
import Runbook.Progress.Event
import Runbook.Text.Blank
import Runbook.Text.Pieces

/-!
The event stream: each progress event as a frame of text lines, and the frames of a text.
-/

namespace Runbook.Stream

open Runbook.Text

/-- The name of an event in the stream. -/
def eventName : ProgressEvent → String
  | .step _ => "step"
  | .done .. => "done"

/-- The payload of an event, with its fields in order. -/
def payload : ProgressEvent → Json
  | .step event =>
    let data := match event.millis with
      | some millis => [("duration_ms", Json.int millis)]
      | none => []
    .object [("data", .object data), ("run_id", .string event.runId), ("status", .string event.status.name),
      ("step_id", .string event.stepId)]
  | .done runId _ status canceled =>
    .object [("canceled", .bool canceled), ("run_id", .string runId), ("status", .string status.name)]

/-- The frame of an event: its name, its payload on one line, and an empty line. -/
def frame (event : ProgressEvent) : String :=
  "event: " ++ eventName event ++ "\ndata: " ++ (payload event).compact ++ "\n\n"

/-- The frames of several events. -/
def frames (events : List ProgressEvent) : String := String.join (events.map frame)

/-- An event read from a stream. -/
structure Message where
  name : String
  raw : String
  /-- The payload, where it is JSON. -/
  json : Option Json

/-- The reading of a stream between two lines. -/
structure Reading where
  name : Option String := none
  data : List String := []
  messages : List Message := []

namespace Reading

/-- The event so far is complete, if it has a name; data without a name is dropped. -/
def flush (reading : Reading) : Reading :=
  match reading.name with
  | some name =>
    let raw := "\n".intercalate reading.data
    { messages := reading.messages ++ [⟨name, raw, Json.parse? raw⟩] }
  | none => { messages := reading.messages }

/-- The reading after one more line. -/
def next (reading : Reading) (line : List Char) : Reading :=
  match afterFront? "event:".toList line with
  | some name => { reading.flush with name := some (String.ofList (trim name)) }
  | none =>
    match afterFront? "data:".toList line with
    | some data => { reading with data := reading.data ++ [String.ofList (trim data)] }
    | none => if line.isEmpty then reading.flush else reading

end Reading

/-- The events of a stream text. The last event needs no empty line after it. -/
def parse (text : String) : List Message :=
  ((lines text.toList).foldl Reading.next {}).flush.messages

end Runbook.Stream

import Mathlib.Data.List.Basic
import Runbook.Progress.Channel
import Runbook.Progress.Stream
import Runbook.Proofs.Control
import Runbook.Proofs.Document.Parts
import Runbook.Proofs.Json.Compact
import Runbook.Proofs.Json.Text
import Runbook.Proofs.Text.Lines
import Runbook.Run.Interaction

/-!
Progress on its way to whoever follows a run. A channel that nobody receives from holds the first events published to it,
as many as fit; an event that does not fit is lost, and changes nothing.
-/

namespace Runbook

/-- The progress event that a note tells. -/
def Note.event? : Note → Option ProgressEvent
  | .progress event => some event
  | .exchange .. | .retry .. => none

namespace Channel

/-- The channel after some events are published, one after another. -/
def publish (channel : Channel) (events : List ProgressEvent) : Channel :=
  events.foldl (fun channel event => (channel.emit event).2) channel

/-- The channel after a note; it is told progress only. -/
def observe (channel : Channel) : Note → Channel
  | .progress event => (channel.emit event).2
  | .exchange .. | .retry .. => channel

/-- A channel that observes notes is published the events among them. -/
theorem foldl_observe (channel : Channel) (notes : List Note) :
    notes.foldl observe channel = channel.publish (notes.filterMap Note.event?) := by
  rw [publish, List.foldl_filterMap]
  refine List.foldl_ext _ _ _ fun channel note _ => ?_
  cases note <;> rfl

/-- While there is a receiver that takes nothing, the events that still fit join the queue. -/
theorem publish_queue (channel : Channel) (events : List ProgressEvent) (received : channel.hasReceiver = true) :
    (channel.publish events).queue = channel.queue ++ events.take (channel.capacity - channel.queue.length) := by
  induction events generalizing channel with
  | nil => simp [publish]
  | cons event rest ih =>
    have next : channel.publish (event :: rest) = (channel.emit event).2.publish rest := rfl
    rw [next]
    by_cases room : channel.queue.length < channel.capacity
    · have emitted : (channel.emit event).2 = { channel with queue := channel.queue ++ [event] } := by
        simp [emit, received, room]
      obtain ⟨left, more⟩ := Nat.exists_eq_succ_of_ne_zero (Nat.sub_ne_zero_of_lt room)
      have fewer : channel.capacity - (channel.queue ++ [event]).length = left := by
        rw [List.length_append, List.length_singleton]
        omega
      rw [emitted, ih { channel with queue := channel.queue ++ [event] } received, fewer, more, List.take_succ_cons,
        List.append_assoc, List.singleton_append]
    · have emitted : (channel.emit event).2 = channel := by simp [emit, room]
      have full : channel.capacity - channel.queue.length = 0 := by omega
      rw [emitted, ih channel received, full, List.take_zero, List.take_zero]

/-- A new channel holds the first events published to it. -/
theorem publish_ofCapacity (capacity : Nat) (events : List ProgressEvent) :
    ((ofCapacity capacity).publish events).queue = events.take (max capacity 1) := by
  rw [publish_queue _ _ rfl]
  rfl

end Channel
end Runbook

/-!
The event stream and its reading: a blank line leaves nothing of what was read before it open, so a stream can be read
frame by frame, and every frame gives back what it was written from.
-/

namespace Runbook

namespace Stream

open Runbook.Text

section Blank

/-- The last line of a text is ended and empty. -/
def EndsBlank (text : List Char) : Prop :=
  ∃ front, (front = [] ∨ ∃ before, front = before ++ ['\n']) ∧ (text = front ++ ['\n'] ∨ text = front ++ ['\r', '\n'])

theorem lines_of_endsBlank {text : List Char} (blank : EndsBlank text) : ∃ before, lines text = before ++ [[]] := by
  obtain ⟨front, ended, rfl | rfl⟩ := blank
  · exact ⟨lines front, lines_append ended _⟩
  · exact ⟨lines front, lines_append ended _⟩

theorem EndsBlank.ended {text : List Char} (blank : EndsBlank text) : ∃ front, text = front ++ ['\n'] := by
  obtain ⟨front, -, rfl | rfl⟩ := blank
  · exact ⟨front, rfl⟩
  · exact ⟨front ++ ['\r'], (List.append_assoc front ['\r'] ['\n']).symm⟩

end Blank

namespace Reading

/-- The same reading with messages that were complete before it. -/
def behind (messages : List Message) (reading : Reading) : Reading :=
  { reading with messages := messages ++ reading.messages }

variable (messages : List Message) (reading : Reading)

theorem flush_behind : (reading.behind messages).flush = reading.flush.behind messages := by
  cases name : reading.name <;> simp [flush, behind, name]

/-- What a line does to a reading does not depend on the messages that are complete. -/
theorem next_behind (line : List Char) : (reading.behind messages).next line = (reading.next line).behind messages := by
  unfold next
  rw [flush_behind]
  split
  · rfl
  · split
    · rfl
    · split <;> rfl

theorem foldl_behind (unread : List (List Char)) :
    unread.foldl next (reading.behind messages) = (unread.foldl next reading).behind messages := by
  induction unread generalizing reading with
  | nil => rfl
  | cons line rest ih => rw [List.foldl_cons, next_behind, ih, List.foldl_cons]

/-- A completed reading holds its messages and nothing open. -/
theorem flush_eq : reading.flush = Reading.behind reading.flush.messages {} := by
  cases name : reading.name <;> simp [flush, behind, name]

theorem flush_flush : reading.flush.flush = reading.flush := by
  cases name : reading.name <;> simp [flush, name]

variable {reading}

/-- A line that names an event opens it. -/
theorem next_event {name : String} (trimmed : IsTrimmed name.toList) :
    reading.next ("event: " ++ name).toList = { reading.flush with name := some name } := by
  have kept : String.ofList (trim (' ' :: name.toList)) = name := by
    rw [trim_cons (by decide), trimmed, String.ofList_toList]
  rw [String.toList_append]
  change { reading.flush with name := some (String.ofList (trim (' ' :: name.toList))) } = _
  rw [kept]

/-- A line of data joins the data of the event that is open. -/
theorem next_data {data : String} (trimmed : IsTrimmed data.toList) :
    reading.next ("data: " ++ data).toList = { reading with data := reading.data ++ [data] } := by
  have kept : String.ofList (trim (' ' :: data.toList)) = data := by
    rw [trim_cons (by decide), trimmed, String.ofList_toList]
  rw [String.toList_append]
  change { reading with data := reading.data ++ [String.ofList (trim (' ' :: data.toList))] } = _
  rw [kept]

end Reading

/-- A text behind a blank line is read as it is alone. -/
theorem parse_append {first : String} (ended : first = "" ∨ EndsBlank first.toList) (second : String) :
    parse (first ++ second) = parse first ++ parse second := by
  rcases ended with rfl | blank
  · rw [String.empty_append]
    rfl
  -- The blank line completes the reading, whatever stands before it.
  obtain ⟨reading, complete⟩ : ∃ reading : Reading, (lines first.toList).foldl Reading.next {} = reading.flush := by
    obtain ⟨before, whole⟩ := lines_of_endsBlank blank
    rw [whole, List.foldl_append]
    exact ⟨_, rfl⟩
  have read : parse first = reading.flush.messages := by
    rw [parse, complete, Reading.flush_flush]
  rw [read, parse, String.toList_append, lines_append (.inr blank.ended), List.foldl_append, complete]
  conv_lhs => rw [Reading.flush_eq reading, Reading.foldl_behind, Reading.flush_behind]
  rfl

section Frame

variable {event : ProgressEvent}

theorem eventName_eq (event : ProgressEvent) : eventName event = "step" ∨ eventName event = "done" := by
  cases event with
  | step => exact .inl rfl
  | done => exact .inr rfl

theorem writable_payload (fits : event.Fits) : (payload event).Writable := by
  cases event with
  | done => simp only [payload, Json.Writable, Json.WritableFields, and_self]
  | step event =>
    cases known : event.millis with
    | none => simp only [payload, known, Json.Writable, Json.WritableFields, and_self]
    | some millis =>
      have bound := fits millis known
      simp only [Document.wordBound, Nat.pow_eq] at bound
      simp only [payload, known, Json.Writable, Json.WritableFields, Json.leastInt, Json.greatestInt, and_true,
        Nat.pow_eq]
      omega

theorem depth_payload (event : ProgressEvent) : (payload event).depth ≤ 2 := by
  cases event with
  | done => simp [payload, Json.depth, Json.depthFields]
  | step event => cases known : event.millis <;> simp [payload, known, Json.depth, Json.depthFields]

theorem canonical_payload (event : ProgressEvent) : (payload event).canonical = payload event := by
  cases event with
  | done => rfl
  | step event => cases known : event.millis <;> simp only [payload, known] <;> rfl

/-- The payload of an event is read back from its line. -/
theorem parse?_payload (fits : event.Fits) : Json.parse? (payload event).compact = some (payload event) := by
  have shallow : (payload event).depth ≤ Json.depthLimit := (depth_payload event).trans (by decide)
  rw [Json.parse?, Json.read?_compact (writable_payload fits) shallow, Option.map_some, canonical_payload]

theorem isTrimmed_payload (event : ProgressEvent) : IsTrimmed (payload event).compact.toList := by
  obtain ⟨fields, object⟩ : ∃ fields, payload event = .object fields := by
    cases event <;> exact ⟨_, rfl⟩
  rw [object, Json.toList_compact_object]
  exact isTrimmed_append (by decide) (List.cons_ne_nil _ _) (by decide)

/-- The lines of a frame. -/
def frameLines (event : ProgressEvent) : List (List Char) :=
  [("event: " ++ eventName event).toList, ("data: " ++ (payload event).compact).toList, []]

theorem toList_frame (event : ProgressEvent) : (frame event).toList = (frameLines event).flatMap (· ++ ['\n']) := by
  simp [frame, frameLines]

/-- No line of a frame holds a control character, whatever texts the event holds. -/
theorem not_mem_frameLines {c : Char} (control : c.toNat < 0x20) : ∀ line ∈ frameLines event, c ∉ line := by
  have word : Visible (eventName event) := by
    rcases eventName_eq event with name | name <;> rw [name] <;> decide
  have name : Visible ("event: " ++ eventName event) := visible_append_iff.mpr ⟨by decide, word⟩
  have data : Visible ("data: " ++ (payload event).compact) :=
    visible_append_iff.mpr ⟨by decide, Json.visible_compact _⟩
  intro line member
  simp only [frameLines, List.mem_cons, List.not_mem_nil, or_false] at member
  rcases member with rfl | rfl | rfl
  · exact name.not_mem control
  · exact data.not_mem control
  · exact List.not_mem_nil

theorem lines_frame (event : ProgressEvent) : lines (frame event).toList = frameLines event := by
  rw [toList_frame]
  apply lines_flatMap
  · exact not_mem_frameLines (by decide)
  · intro line member last
    exact not_mem_frameLines (by decide) line member (List.mem_of_getLast? last)

theorem endsBlank_frame (event : ProgressEvent) : EndsBlank (frame event).toList := by
  have cut : (frame event).toList =
      ("event: " ++ eventName event ++ "\ndata: " ++ (payload event).compact).toList ++ ['\n'] ++ ['\n'] := by
    simp [frame]
  exact ⟨_, .inr ⟨_, rfl⟩, .inl cut⟩

/-- What is read of the frame of an event. -/
def message (event : ProgressEvent) : Message :=
  ⟨eventName event, (payload event).compact, some (payload event)⟩

/-- A frame is read as the one message that it was written for. -/
theorem parse_frame (fits : event.Fits) : parse (frame event) = [message event] := by
  have name : IsTrimmed (eventName event).toList := by
    rcases eventName_eq event with name | name <;> rw [name] <;> decide
  have read : parse (frame event) =
      [⟨eventName event, (payload event).compact, Json.parse? (payload event).compact⟩] := by
    rw [parse, lines_frame, frameLines]
    simp only [List.foldl_cons, List.foldl_nil, Reading.next_event name, Reading.next_data (isTrimmed_payload event)]
    rfl
  rw [read, parse?_payload fits, message]

end Frame

/-- The frames of a run of events are read as their messages, in order. -/
theorem parse_frames {events : List ProgressEvent} (fits : ∀ event ∈ events, event.Fits) :
    parse (frames events) = events.map message := by
  induction events with
  | nil => rfl
  | cons event rest ih =>
    have cut : frames (event :: rest) = frame event ++ frames rest := by
      simp [frames, String.join_cons]
    have later := ih fun other member => fits other (List.mem_cons_of_mem _ member)
    rw [cut, parse_append (.inr (endsBlank_frame event)), parse_frame (fits event List.mem_cons_self), later]
    rfl

section Told

open Readable

/-- What a frame tells of its event. -/
inductive Told where
  | step (runId stepId : String) (status : StepStatus) (millis : Option Nat)
  | done (runId : String) (status : RunStatus) (canceled : Bool)
deriving DecidableEq, Repr

namespace Told

def ofEvent : ProgressEvent → Told
  | .step event => step event.runId event.stepId event.status event.millis
  | .done runId _ status canceled => done runId status canceled

/-- What a message tells, each part looked up by its name in the payload. A duration may be missing. -/
def ofMessage? (message : Message) : Option Told := do
  let payload ← message.json
  let part {α : Type} (name : String) (read : Json → Option α) : Option α := (payload.field? name).bind read
  match message.name with
  | "step" =>
    let data ← payload.field? "data"
    return step (← part "run_id" text?) (← part "step_id" text?) (← part "status" Document.stepStatus?)
      ((data.field? "duration_ms").bind nat?)
  | "done" => return done (← part "run_id" text?) (← part "status" Document.runStatus?) (← part "canceled" bool?)
  | _ => none

theorem ofMessage?_message (event : ProgressEvent) : ofMessage? (message event) = some (ofEvent event) := by
  cases event with
  | done runId scenario status canceled =>
    have status : Document.runStatus? (Json.string status.name) = some status := status.ofName?_name
    simp [ofMessage?, message, payload, eventName, Json.field?, List.lookup_cons, status, ofEvent, text?, bool?]
  | step event =>
    have status : Document.stepStatus? (Json.string event.status.name) = some event.status := event.status.ofName?_name
    cases known : event.millis <;>
      simp [ofMessage?, message, payload, eventName, Json.field?, List.lookup_cons, status, known, ofEvent, text?, nat?]

end Told

/-- Every stream of events is read as one message for each event, in order, and each message tells what its event says;
a stream cut behind a blank line is read part by part. -/
theorem parse_told (events : List ProgressEvent) (fits : ∀ event ∈ events, event.Fits) :
    parse (frames events) =
        events.map (fun event => ⟨eventName event, (payload event).compact, some (payload event)⟩) ∧
      (parse (frames events)).mapM Told.ofMessage? = some (events.map Told.ofEvent) ∧
      ∀ first second : String, first = "" ∨ EndsBlank first.toList →
        parse (first ++ second) = parse first ++ parse second := by
  have read := parse_frames fits
  refine ⟨read, ?_, fun first second ended => parse_append ended second⟩
  rw [read]
  exact mapM_map_eq_some fun event _ => Told.ofMessage?_message event

/-- Line breaks, colons and blanks in the texts of an event come back, and so does the longest duration. -/
theorem parse_told_awkward :
    let events : List ProgressEvent :=
      [.step ⟨"run: 1\n\n", "", " step\r\n", "", .passed, some (Document.wordBound 64 - 1), []⟩,
        .step ⟨"event: done", "", "data:", "", .running, none, []⟩, .done "\n: " "" .failed true]
    (∀ event ∈ events, event.Fits) ∧
      (parse (frames events)).mapM Told.ofMessage? =
        some [.step "run: 1\n\n" " step\r\n" .passed (some 18446744073709551615),
          .step "event: done" "data:" .running none, .done "\n: " .failed true] ∧
      EndsBlank "data: lost\n\r\n".toList ∧
      parse ("data: lost\n\r\n" ++ frames events) = parse "data: lost\n\r\n" ++ parse (frames events) := by
  intro events
  have fits : ∀ event ∈ events, event.Fits := by
    simp [events, ProgressEvent.Fits, StepEvent.Fits, Document.wordBound]
  have blank : EndsBlank "data: lost\n\r\n".toList :=
    ⟨"data: lost\n".toList, .inr ⟨"data: lost".toList, by decide⟩, .inr (by decide)⟩
  obtain ⟨-, told, cut⟩ := parse_told events fits
  exact ⟨fits, told, blank, cut _ _ (.inr blank)⟩

end Told

end Stream
end Runbook

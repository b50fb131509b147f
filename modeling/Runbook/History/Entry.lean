import Runbook.Document.Decode
import Runbook.Document.Encode

/-!
Entries of the history: each a request that was sent, with what came back for it.
-/

namespace Runbook

/-- A request that was sent, with what came back. The identifier is the one that the store gave. -/
structure HistoryEntry where
  id : Int := 0
  timestamp : Time.Instant
  /-- The directory of the project that the request was sent for. -/
  project : Option String := none
  method : String
  url : String
  requestHeaders : Dict String
  requestBody : Option String
  status : Option Nat
  responseHeaders : Dict String
  responseBody : Option String
  millis : Nat
  /-- Why no response came. -/
  error : Option String := none
deriving DecidableEq, Repr

namespace HistoryEntry

/-- The entry of an exchange at an instant. -/
def ofExchange (timestamp : Time.Instant) (project : Option String) (request : Request) (outcome : Outcome) :
    HistoryEntry :=
  let answered := match outcome with
    | .ok reply => some reply
    | .error _ => none
  { timestamp, project
    method := request.method.name
    url := request.url
    requestHeaders := request.headers
    requestBody := request.body
    status := answered.map Reply.status
    responseHeaders := (answered.map Reply.headers).getD []
    responseBody := answered.map Reply.body
    millis := (answered.map Reply.millis).getD 0
    error := match outcome with
      | .ok _ => none
      | .error error => some error.cause }

/-- The entry of an attempt to get a response: where none came, it tells the milliseconds that passed. -/
def ofAttempt (timestamp : Time.Instant) (project : Option String) (request : Request) (outcome : Outcome)
    (elapsed : Nat) : HistoryEntry :=
  let entry := ofExchange timestamp project request outcome
  match outcome with
  | .ok _ => entry
  | .error _ => { entry with millis := elapsed }

/-- An entry as JSON. -/
def toJson (entry : HistoryEntry) : Json :=
  .object [("id", .int entry.id), ("timestamp", .string entry.timestamp.text), ("project", .ofText? entry.project),
    ("method", .string entry.method), ("url", .string entry.url), ("request_headers", .ofTexts entry.requestHeaders),
    ("request_body", .ofText? entry.requestBody), ("response_status", .ofNat? entry.status),
    ("response_headers", .ofTexts entry.responseHeaders), ("response_body", .ofText? entry.responseBody),
    ("duration_ms", .int entry.millis), ("error", .ofText? entry.error)]

end HistoryEntry

namespace Document

open Readable

variable {ν : Type} [Readable ν]

/-- An entry of the history. -/
def historyEntry? (node : ν) : Option HistoryEntry := do
  let record ← record? ["id", "timestamp", "project", "method", "url", "request_headers", "request_body",
    "response_status", "response_headers", "response_body", "duration_ms", "error"] node
  return {
    id := ← record.need 0 int64?
    timestamp := ← record.need 1 instant?
    project := ← record.nullable 2 text?
    method := ← record.need 3 text?
    url := ← record.need 4 text?
    requestHeaders := ← record.need 5 texts?
    requestBody := ← record.optional 6 text?
    status := ← record.optional 7 (natBelow? (wordBound 16))
    responseHeaders := ← record.need 8 texts?
    responseBody := ← record.optional 9 text?
    millis := ← record.need 10 (natBelow? (wordBound 64))
    error := ← record.nullable 11 text? }

end Document
end Runbook

import Runbook.Document.Decode
import Runbook.Document.Encode
import Runbook.Failure
import Runbook.Json.Printer
import Runbook.Run.Interaction

/-!
Delivering the records of finished runs to a console. A delivery is tried again after a failure of the network or of the
server, with a wait that doubles each time; any other answer is final.
-/

namespace Runbook

open Runbook.Text

/-- What a console says about a run that it took. -/
structure Receipt where
  runId : Option String := none
  viewUrl : Option String := none
deriving DecidableEq, Repr

/-- A receipt out of a document. -/
def Document.receipt? {ν : Type} [Readable ν] (node : ν) : Option Receipt := do
  let record ← record? ["run_id", "view_url"] node
  return { runId := ← record.nullable 0 Readable.text?, viewUrl := ← record.nullable 1 Readable.text? }

namespace Delivery

/-- The status codes that have a reason phrase. -/
def reasons : List (Nat × String) := [
  (100, "Continue"), (101, "Switching Protocols"), (102, "Processing"),
  (200, "OK"), (201, "Created"), (202, "Accepted"), (203, "Non Authoritative Information"), (204, "No Content"),
  (205, "Reset Content"), (206, "Partial Content"), (207, "Multi-Status"), (208, "Already Reported"), (226, "IM Used"),
  (300, "Multiple Choices"), (301, "Moved Permanently"), (302, "Found"), (303, "See Other"), (304, "Not Modified"),
  (305, "Use Proxy"), (307, "Temporary Redirect"), (308, "Permanent Redirect"),
  (400, "Bad Request"), (401, "Unauthorized"), (402, "Payment Required"), (403, "Forbidden"), (404, "Not Found"),
  (405, "Method Not Allowed"), (406, "Not Acceptable"), (407, "Proxy Authentication Required"),
  (408, "Request Timeout"), (409, "Conflict"), (410, "Gone"), (411, "Length Required"), (412, "Precondition Failed"),
  (413, "Payload Too Large"), (414, "URI Too Long"), (415, "Unsupported Media Type"), (416, "Range Not Satisfiable"),
  (417, "Expectation Failed"), (418, "I'm a teapot"), (421, "Misdirected Request"), (422, "Unprocessable Entity"),
  (423, "Locked"), (424, "Failed Dependency"), (425, "Too Early"), (426, "Upgrade Required"),
  (428, "Precondition Required"), (429, "Too Many Requests"), (431, "Request Header Fields Too Large"),
  (451, "Unavailable For Legal Reasons"),
  (500, "Internal Server Error"), (501, "Not Implemented"), (502, "Bad Gateway"), (503, "Service Unavailable"),
  (504, "Gateway Timeout"), (505, "HTTP Version Not Supported"), (506, "Variant Also Negotiates"),
  (507, "Insufficient Storage"), (508, "Loop Detected"), (510, "Not Extended"),
  (511, "Network Authentication Required")]

/-- A status code with its reason phrase. -/
def statusText (status : Nat) : String :=
  toString status ++ " " ++ (reasons.lookup status).getD "<unknown status code>"

/-- A console that takes runs. -/
structure Console where
  url : String
  token : Option String := none
  /-- The wait in milliseconds before the first further attempt. -/
  retryBase : Nat := 500
deriving DecidableEq, Repr

/-- The URL that runs are posted to. -/
def Console.endpoint (console : Console) : String :=
  String.ofList (dropBack Request.isSlash console.url.toList) ++ "/v1/runs"

/-- The number of further attempts. -/
def retries : Nat := 3

/-- The request that delivers a run. -/
def request (console : Console) (run : Run) : Request where
  method := .post
  url := console.endpoint
  headers := Dict.ofPairs
    (("content-type", "application/json") ::
      (console.token.map fun token => ("authorization", "Bearer " ++ token)).toList)
  body := some run.toJson.compact
  timeout := 30000

/-- The receipt in the body of an answer; an empty body is a receipt without details. -/
def receipt (body : String) : Except Failure Receipt :=
  if (trim body.toList).isEmpty then .ok {}
  else
    match (Json.read? body).bind Document.receipt? with
    | some receipt => .ok receipt
    | none => .error { message := "failed to parse console response" }

/-- The status says that the console took the run. -/
def isSuccess (status : Nat) : Bool := 200 ≤ status && status < 300

/-- The status says that the server failed. -/
def isServerError (status : Nat) : Bool := 500 ≤ status && status < 600

/-- The failure of a run that the console did not take. -/
def rejected (run : Run) (reply : Reply) : Failure :=
  { message := "console rejected run " ++ run.id ++ ": " ++ statusText reply.status ++ " - " ++ reply.body }

/-- The failure of a run that did not reach the console. -/
def unreachable (run : Run) (error : NetworkError) : Failure :=
  ⟨"failed to submit run " ++ run.id ++ " after " ++ toString retries ++ " retries", [error.cause]⟩

/-- The attempts to deliver a run, with the number of those that are left after this one. -/
def attempts (console : Console) (run : Run) : Nat → Interaction (Except Failure Receipt)
  | 0 => .call (request console run) fun answer =>
    .done <|
      match answer.outcome with
      | .ok reply => if isSuccess reply.status then receipt reply.body else .error (rejected run reply)
      | .error error => .error (unreachable run error)
  | left + 1 => .call (request console run) fun answer =>
    let again : Interaction (Except Failure Receipt) :=
      .wait (console.retryBase * Nat.pow 2 (retries - (left + 1))) fun _ => attempts console run left
    match answer.outcome with
    | .ok reply =>
      if isSuccess reply.status then .done (receipt reply.body)
      else if isServerError reply.status then again
      else .done (.error (rejected run reply))
    | .error _ => again

/-- A run is delivered. -/
def submit (console : Console) (run : Run) : Interaction (Except Failure Receipt) := attempts console run retries

/-- Several runs are delivered one after another, whatever becomes of each. -/
def submitAll (console : Console) : List Run → Interaction (List (Except Failure Receipt))
  | [] => .done []
  | run :: rest => do
    let result ← submit console run
    let results ← submitAll console rest
    return result :: results

/-- The number of deliveries that succeeded. -/
def delivered (results : List (Except Failure Receipt)) : Nat := (results.filter (·.isOk)).length

end Delivery
end Runbook

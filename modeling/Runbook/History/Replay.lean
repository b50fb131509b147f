import Runbook.History.Recorder
import Runbook.Host.Basic

/-!
What is recorded of a run, and sending a recorded request again.
-/

namespace Runbook.History

open Runbook.Text

/-- The store after a note: an exchange adds its entry, and nothing else does. -/
def Store.observe (timestamp : Time.Instant) (project : Option String) (store : Store) : Note → Store
  | .exchange request outcome elapsed => (store.record (.ofAttempt timestamp project request outcome elapsed)).2
  | _ => store

/-- Headers with some of them given other values; an override takes the place of every header of its name in any
case. -/
def overrideHeaders (headers overrides : Dict String) : Dict String :=
  overrides.foldl (fun headers (name, value) =>
    Dict.insert name value (headers.filter fun header => !sameName header.1 name)) headers

/-- The request that sends an entry again. -/
def replayRequest (entry : HistoryEntry) (overrides : Dict String) (timeout : Nat) : Except StoreError Request :=
  match Method.read? entry.method with
  | none => .error (.corrupt entry.id (.method entry.method))
  | some method => .ok {
      method
      url := entry.url
      headers := overrideHeaders entry.requestHeaders overrides
      body := entry.requestBody
      timeout }

namespace Recorder

variable {m : Type → Type} [Monad m] [Host m]

/-- A recorded request is sent again and what comes back is recorded under a new identifier. -/
def replay (recorder : Recorder) (id : Int) (overrides : Dict String) (timeout : Nat) :
    m (Except StoreError HistoryEntry) := do
  match ← recorder.get id with
  | .error error => return .error error
  | .ok recorded =>
    match replayRequest recorded overrides timeout with
    | .error error => return .error error
    | .ok request =>
      let answer ← Host.send request
      let entry := HistoryEntry.ofExchange (← Host.now) recorded.project request answer.outcome
      return (← recorder.record entry).map fun id => { entry with id }

end Recorder
end Runbook.History

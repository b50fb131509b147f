import Runbook.History.Log
import Runbook.History.Store

/-!
The history on a machine: a file that keeps the store, and a directory of log files where one is wanted. A log file that
cannot be written does not matter.
-/

namespace Runbook.History

/-- Where the history is kept. -/
structure Recorder where
  database : String
  logs : Option String := none
deriving DecidableEq, Repr

namespace Recorder

variable {m : Type → Type} [Monad m] [Files m]

/-- The store of a recorder. -/
def load (recorder : Recorder) : m (Except StoreError Store) := do
  match ← Files.readText recorder.database with
  | .ok text => return ((Store.read? text).map Except.ok).getD (.error (.database "initialize history db" .notStore))
  | .error .notFound => return .ok {}
  | .error .notText => return .error (.database "initialize history db" .notStore)
  | .error _ => return .error (.database "open history db" (.cannotOpen recorder.database))

/-- The store of a recorder is kept. -/
def save (recorder : Recorder) (task : String) (store : Store) : m (Except StoreError Unit) := do
  return (← Files.write recorder.database store.text).mapError fun _ =>
    .database task (.cannotOpen recorder.database)

/-- The history is opened: its directory is made where it is missing, and its store can be read and written. -/
def «open» (recorder : Recorder) : m (Except StoreError Unit) := do
  let directory := (Pathname.parent? recorder.database).getD ""
  match ← Files.makeDirectories directory with
  | .error cause => return .error (.files "create history directory" cause)
  | .ok () =>
    match ← recorder.load with
    | .error error => return .error error
    | .ok store => recorder.save "open history db" store

/-- The line of an entry is added to its log file. -/
def log (directory : String) (entry : HistoryEntry) : m Unit := do
  match ← Files.makeDirectories directory with
  | .ok () => discard (Files.append (Pathname.join directory (logName entry)) (logLine entry))
  | .error _ => return

/-- An entry is recorded under a new identifier, which its log line also tells, as long as one is left. -/
def record (recorder : Recorder) (entry : HistoryEntry) : m (Except StoreError Int) := do
  match ← recorder.load with
  | .error error => return .error error
  | .ok store =>
    let task := "insert history record"
    if store.isFull then return .error (.database task .full)
    else
      let (id, store) := store.record entry
      match ← recorder.save task store with
      | .error error => return .error error
      | .ok () =>
        recorder.logs.forM fun directory => log directory { entry with id }
        return .ok id

/-- The entry with an identifier. -/
def get (recorder : Recorder) (id : Int) : m (Except StoreError HistoryEntry) := do
  return (← recorder.load).bind (·.get id)

/-- The entries that a filter lets through, newest first. -/
def query (recorder : Recorder) (filter : Filter) : m (Except StoreError (List HistoryEntry)) := do
  return (← recorder.load).bind (·.query filter)

end Recorder
end Runbook.History

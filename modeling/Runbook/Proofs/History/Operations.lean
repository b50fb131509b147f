import Runbook.History.Replay
import Runbook.Proofs.History.Recorder

/-!
Operations on a history, by any number of recorders that share its store and take turns in any order. Whatever they do,
the store only grows, each new entry under an identifier above all earlier ones, and every entry is read back from then
on as it was recorded.
-/

namespace Runbook.History

open Machine

/-- What is done with a history. A replay that other recorders come between is a `get`, a `send` and a `record` among
their operations. -/
inductive Operation where
  | record (entry : HistoryEntry)
  | replay (id : Int) (overrides : Dict String) (timeout : Nat)
  | get (id : Int)
  | query (filter : Filter)
  | send (request : Request)

/-- What comes of an operation. -/
inductive Response where
  | recorded (result : Except StoreError Int)
  | replayed (result : Except StoreError HistoryEntry)
  | found (result : Except StoreError HistoryEntry)
  | listed (result : Except StoreError (List HistoryEntry))
  | answered (answer : Answer)

/-- The identifier that a response tells of a new entry. -/
def Response.newId? : Response → Option Int
  | recorded (.ok id) => some id
  | replayed (.ok entry) => some entry.id
  | _ => none

namespace Operation

/-- A status that is to be recorded fits its column. -/
def Fits : Operation → Prop
  | record entry => ∀ status ∈ entry.status, status < Document.wordBound 16
  | _ => True

/-- An operation carried out with a recorder. -/
def perform (recorder : Recorder) : Operation → StateM Machine Response
  | record entry => return .recorded (← recorder.record entry)
  | replay id overrides timeout => return .replayed (← recorder.replay id overrides timeout)
  | get id => return .found (← recorder.get id)
  | query filter => return .listed (← recorder.query filter)
  | send request => return .answered (← Host.send request)

/-- What an operation may come to on a store: its response, and the store afterwards. -/
inductive Does (store : Store) : Operation → Response → Store → Prop
  | record (entry : HistoryEntry) (room : store.isFull = false) :
      Does store (.record entry) (.recorded (.ok (store.record entry).1)) (store.record entry).2
  | recordFails (entry : HistoryEntry) (full : store.isFull = true) :
      Does store (.record entry) (.recorded (.error (.database "insert history record" .full))) store
  | replay (id : Int) (overrides : Dict String) (timeout : Nat) (entry : HistoryEntry) (room : store.isFull = false) :
      Does store (.replay id overrides timeout) (.replayed (.ok { entry with id := (store.record entry).1 }))
        (store.record entry).2
  | replayFails (id : Int) (overrides : Dict String) (timeout : Nat) (error : StoreError) :
      Does store (.replay id overrides timeout) (.replayed (.error error)) store
  | get (id : Int) : Does store (.get id) (.found (store.get id)) store
  | query (filter : Filter) : Does store (.query filter) (.listed (store.query filter)) store
  | send (request : Request) (answer : Answer) : Does store (.send request) (.answered answer) store

end Operation

variable {database : String} {place : Place} {store : Store} {machine : Machine} {recorder : Recorder}

namespace Recorder

variable {id : Int} {overrides : Dict String} {timeout : Nat} {recorded : HistoryEntry} {request : Request}
  {error : StoreError}

/-- Nothing is sent where no entry can be read. -/
theorem replay_error (shares : recorder.Shares database place) (keeps : Keeps database place store machine)
    (missing : store.get id = .error error) :
    machine.run (recorder.replay id overrides timeout) = (.error error, machine) := by
  have read := Recorder.get_eq shares keeps id
  rw [missing] at read
  unfold replay
  rw [run_bind read]
  rfl

/-- Nothing is sent where the entry is not one of a request. -/
theorem replay_refused (shares : recorder.Shares database place) (keeps : Keeps database place store machine)
    (found : store.get id = .ok recorded) (refused : replayRequest recorded overrides timeout = .error error) :
    machine.run (recorder.replay id overrides timeout) = (.error error, machine) := by
  have read := Recorder.get_eq shares keeps id
  rw [found] at read
  unfold replay
  rw [run_bind read]
  dsimp only
  rw [refused]
  rfl

/-- The request of an entry is sent, and what comes back is given to be recorded. -/
theorem replay_sends (shares : recorder.Shares database place) (keeps : Keeps database place store machine)
    (found : store.get id = .ok recorded) (made : replayRequest recorded overrides timeout = .ok request) :
    let entry := HistoryEntry.ofExchange (machine.send request).2.clock recorded.project request
      (machine.send request).1.outcome
    machine.run (recorder.replay id overrides timeout) =
      (machine.send request).2.run (do return (← recorder.record entry).map fun id => { entry with id }) := by
  intro entry
  have read := Recorder.get_eq shares keeps id
  rw [found] at read
  unfold replay
  rw [run_bind read]
  dsimp only
  rw [made]
  rfl

/-- While identifiers are left, what comes back for the request of an entry is recorded under the next one. -/
theorem replay_eq (shares : recorder.Shares database place) (keeps : Keeps database place store machine)
    (served : StatusesFit machine.executor) (room : store.isFull = false) (found : store.get id = .ok recorded)
    (made : replayRequest recorded overrides timeout = .ok request) :
    let entry := HistoryEntry.ofExchange (machine.send request).2.clock recorded.project request
      (machine.send request).1.outcome
    ∃ after, machine.run (recorder.replay id overrides timeout) =
        (.ok { entry with id := (store.record entry).1 }, after) ∧
      Keeps database place (store.record entry).2 after ∧ after.SameServer (machine.send request).2 := by
  intro entry
  have kept : Keeps database place store (machine.send request).2 := keeps.of_files rfl rfl
  have fits : ∀ reply, (machine.send request).1.outcome = .ok reply → reply.status < Document.wordBound 16 :=
    served machine.requests request
  obtain ⟨after, added, keeps', same⟩ := Recorder.record_eq shares kept room
    (status_ofExchange fits (machine.send request).2.clock recorded.project request)
  refine ⟨after, ?_, keeps', same⟩
  rw [replay_sends shares keeps found made, run_bind added]
  rfl

end Recorder

namespace Operation

/-- A recorded request that is sent again is recorded as a new entry, or the store stays as it is. -/
theorem replay_does (shares : recorder.Shares database place) (keeps : Keeps database place store machine)
    (served : StatusesFit machine.executor) (id : Int) (overrides : Dict String) (timeout : Nat) :
    ∃ result after next, machine.run (recorder.replay id overrides timeout) = (result, after) ∧
      Keeps database place next after ∧ after.executor = machine.executor ∧
      Does store (.replay id overrides timeout) (.replayed result) next := by
  cases found : store.get id with
  | error error =>
    have ran := @Recorder.replay_error database place store machine recorder id overrides timeout error shares keeps found
    exact ⟨_, machine, store, ran, keeps, rfl, .replayFails id overrides timeout error⟩
  | ok recorded =>
    cases made : replayRequest recorded overrides timeout with
    | error error =>
      have ran := Recorder.replay_refused shares keeps found made
      exact ⟨_, machine, store, ran, keeps, rfl, .replayFails id overrides timeout error⟩
    | ok request =>
      cases room : store.isFull with
      | true =>
        have kept : Keeps database place store (machine.send request).2 := keeps.of_files rfl rfl
        have refused := Recorder.record_full shares kept room (HistoryEntry.ofExchange (machine.send request).2.clock
          recorded.project request (machine.send request).1.outcome)
        have ran := (Recorder.replay_sends shares keeps found made).trans (run_bind refused)
        exact ⟨_, (machine.send request).2, store, ran, kept, rfl, .replayFails id overrides timeout _⟩
      | false =>
        obtain ⟨after, ran, kept, same⟩ := Recorder.replay_eq shares keeps served room found made
        exact ⟨_, after, _, ran, kept, same.executor, .replay id overrides timeout _ room⟩

/-- An operation on a machine does with the store what it may do, and the server stays. -/
theorem perform_does (shares : recorder.Shares database place) (keeps : Keeps database place store machine)
    (served : StatusesFit machine.executor) {operation : Operation} (fits : operation.Fits) :
    ∃ response after next, machine.run (operation.perform recorder) = (response, after) ∧
      Keeps database place next after ∧ after.executor = machine.executor ∧ operation.Does store response next := by
  cases operation with
  | record entry =>
    cases room : store.isFull with
    | true =>
      have refused := Recorder.record_full shares keeps room entry
      exact ⟨_, machine, store, run_bind refused, keeps, rfl, .recordFails entry room⟩
    | false =>
      obtain ⟨after, recorded, kept, server⟩ := Recorder.record_eq shares keeps room fits
      exact ⟨_, after, _, run_bind recorded, kept, server.executor, .record entry room⟩
  | replay id overrides timeout =>
    obtain ⟨result, after, next, replayed, kept, server, does⟩ :=
      replay_does shares keeps served id overrides timeout
    exact ⟨_, after, next, run_bind replayed, kept, server, does⟩
  | get id => exact ⟨_, machine, store, run_bind (Recorder.get_eq shares keeps id), keeps, rfl, .get id⟩
  | query filter =>
    exact ⟨_, machine, store, run_bind (Recorder.query_eq shares keeps filter), keeps, rfl, .query filter⟩
  | send request =>
    have sent : machine.run (Host.send request) = machine.send request := rfl
    exact ⟨_, (machine.send request).2, store, run_bind sent, keeps.of_files rfl rfl, rfl, .send request _⟩

end Operation
end Runbook.History

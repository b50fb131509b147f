import Runbook.Proofs.History.Recorder
import Runbook.Proofs.Observer.Audience
import Runbook.Proofs.Run.Telling

/-!
The history of a run. While the history can be written, a run adds one entry to it for each request that it sends, in
the order of the requests, whatever becomes of the attempts, the steps and the run.
-/

namespace Runbook

open History Machine

/-- An entry tells a request, the project that it was sent for, and what came back. -/
structure HistoryEntry.Tells (project : Option String) (request : Request) (outcome : Outcome)
    (entry : HistoryEntry) : Prop where
  project : entry.project = project
  method : entry.method = request.method.name
  url : entry.url = request.url
  requestHeaders : entry.requestHeaders = request.headers
  requestBody : entry.requestBody = request.body
  answered : ∀ reply, outcome = .ok reply → entry.status = some reply.status ∧
    entry.responseHeaders = reply.headers ∧ entry.responseBody = some reply.body ∧ entry.millis = reply.millis ∧
    entry.error = none
  failed : ∀ error, outcome = .error error → entry.status = none ∧ entry.responseHeaders = [] ∧
    entry.responseBody = none ∧ entry.error = some error.cause

/-- The entry of an attempt tells the attempt. -/
theorem HistoryEntry.tells_ofAttempt (timestamp : Time.Instant) (project : Option String) (request : Request)
    (outcome : Outcome) (elapsed : Nat) :
    (ofAttempt timestamp project request outcome elapsed).Tells project request outcome := by
  cases outcome with
  | ok reply =>
    refine ⟨rfl, rfl, rfl, rfl, rfl, fun other same => ?_, nofun⟩
    cases same
    exact ⟨rfl, rfl, rfl, rfl, rfl⟩
  | error error =>
    refine ⟨rfl, rfl, rfl, rfl, rfl, nofun, fun other same => ?_⟩
    cases same
    exact ⟨rfl, rfl, rfl, rfl⟩

/-- A store after requests were sent, each of which was recorded before the next one was sent. -/
inductive History.Recorded (project : Option String) (executor : Interaction.Executor) :
    List Request → Store → List Request → Store → Prop
  | nil {earlier : List Request} {store : Store} : Recorded project executor earlier store [] store
  | cons {earlier made : List Request} {request : Request} {store last : Store} (entry : HistoryEntry)
      (sound : store.Sound) (tells : entry.Tells project request (outcomeOf executor earlier request))
      (rest : Recorded project executor (earlier ++ [request]) (store.record entry).2 made last) :
      Recorded project executor earlier store (request :: made) last

namespace History.Recorded

variable {project : Option String} {executor : Interaction.Executor} {earlier made : List Request} {store last : Store}

theorem extends_store (recorded : Recorded project executor earlier store made last) : last.Extends store := by
  induction recorded with
  | nil => exact .refl _
  | cons entry _ _ _ ih => exact ih.trans (Store.extends_record _ entry)

/-- The rows that were added are those of the requests, one by one. -/
theorem exists_rows (recorded : Recorded project executor earlier store made last) :
    ∃ added, last.rows = store.rows ++ added ∧ added.length = made.length ∧
      ∀ index request, made[index]? = some request → ∃ entry : HistoryEntry,
        added[index]? = some (.ofEntry (store.lastId + 1 + index) entry) ∧
          entry.Tells project request (outcomeOf executor (earlier ++ made.take index) request) ∧
          (entry.Storable → last.get (store.lastId + 1 + index) = .ok (entry.kept (store.lastId + 1 + index))) := by
  induction recorded with
  | nil => exact ⟨[], (List.append_nil _).symm, rfl, fun _ _ inside => by cases inside⟩
  | @cons earlier made request store last entry sound tells rest ih =>
    obtain ⟨added, grown, long, each⟩ := ih
    refine ⟨.ofEntry (store.lastId + 1) entry :: added, ?_, ?_, fun index other inside => ?_⟩
    · rw [grown]
      exact List.append_assoc _ _ _
    · rw [List.length_cons, List.length_cons, long]
    · cases index with
      | zero =>
        cases inside
        have first : store.lastId + 1 + (0 : Nat) = (store.record entry).1 := Int.add_zero _
        have held : (store.record entry).1 ∈ (store.record entry).2.rows.map Row.id := by
          rw [Store.ids_record]
          exact List.mem_append_right _ (List.mem_singleton_self _)
        rw [first]
        refine ⟨entry, rfl, ?_, fun storable => ?_⟩
        · rw [List.take_zero, List.append_nil]
          exact tells
        · rw [rest.extends_store.get_eq held]
          exact Store.get_record sound storable
      | succ index =>
        obtain ⟨later, row, told, read⟩ := each index other inside
        have next : store.lastId + 1 + (index + 1 : Nat) = (store.record entry).2.lastId + 1 + index := by
          change store.lastId + 1 + (index + 1 : Nat) = store.lastId + 1 + 1 + index
          omega
        rw [next, List.take_succ_cons]
        refine ⟨later, row, ?_, read⟩
        rw [List.append_assoc] at told
        exact told

end History.Recorded

variable {α : Type} {database : String} {place : Place} {store : Store} {machine : Machine} {recorder : Recorder}
  {watch : Command.Watch} {made : List Request}

namespace Machine

/-- A machine after a request was sent and its exchange was observed. -/
def exchanged (watch : Command.Watch) (request : Request) (machine : Machine) : Machine :=
  let answer := (machine.send request).1
  ((machine.send request).2.run (watch.observe (.exchange request answer.outcome answer.elapsed))).2

theorem exchanged_server (watch : Command.Watch) (request : Request) (machine : Machine) :
    (exchanged watch request machine).executor = machine.executor ∧
      (exchanged watch request machine).requests = machine.requests ++ [request] := by
  have server : (exchanged watch request machine).SameServer (machine.send request).2 := leavesServer_observe watch _ _
  exact ⟨server.executor, server.requests⟩

/-- While identifiers are left, a request that is sent is recorded with what came back. -/
theorem exchanged_keeps (recording : watch.recorder = some recorder) (shares : recorder.Shares database place)
    (keeps : Keeps database place store machine) (served : StatusesFit machine.executor)
    (room : store.isFull = false) (request : Request) :
    ∃ entry : HistoryEntry, entry.Tells watch.project request (outcomeOf machine.executor machine.requests request) ∧
      Keeps database place (store.record entry).2 (exchanged watch request machine) := by
  have kept : Keeps database place store (machine.send request).2 := keeps.of_files rfl rfl
  have outcome : (machine.send request).1.outcome = outcomeOf machine.executor machine.requests request := rfl
  have fits := served machine.requests request
  unfold exchanged
  rcases sending : machine.send request with ⟨answer, next⟩
  rw [sending] at kept outcome
  dsimp only at kept outcome ⊢
  rw [← outcome] at fits ⊢
  let entry := HistoryEntry.ofAttempt next.clock watch.project request answer.outcome answer.elapsed
  have status : ∀ status ∈ entry.status, status < Document.wordBound 16 :=
    status_ofAttempt fits next.clock watch.project request answer.elapsed
  obtain ⟨after, recorded, held, -⟩ := Recorder.record_eq shares kept room status
  refine ⟨entry, HistoryEntry.tells_ofAttempt _ _ _ _ _, ?_⟩
  have observed : (next.run (watch.observe (.exchange request answer.outcome answer.elapsed))).2 = after := by
    have now : next.run Host.now = (next.clock, next) := rfl
    have discarded : (next.run (recorder.record entry)).2 = after := congrArg Prod.snd recorded
    unfold Command.Watch.observe
    rw [recording]
    dsimp only
    rw [run_bind now]
    exact discarded
  rw [observed]
  exact held

/-- A note of something else leaves the store as it is. -/
theorem observe_other {note : Note} (other : note.request? = none) (keeps : Keeps database place store machine) :
    Keeps database place store (machine.run (watch.observe note)).2 := by
  cases note with
  | exchange => cases other
  | retry => exact keeps
  | progress event => exact keeps.of_files rfl rfl

/-- The requests that an interaction sends come behind those that were sent before. -/
theorem requests_prefix (interaction : Interaction α) (watch : Command.Watch) (machine : Machine) :
    machine.requests <+: (machine.run (interaction.perform watch.observe)).2.requests := by
  induction interaction generalizing machine with
  | done result => exact List.prefix_refl _
  | call request resume ih =>
    have sent : machine.requests <+: (machine.send request).2.requests := List.prefix_append _ _
    exact sent.trans (ih _ (machine.send request).2)
  | wait millis resume ih => exact ih _ (machine.waited millis)
  | note content rest ih =>
    have same := (leavesServer_observe watch content machine).requests
    have later := ih (machine.run (watch.observe content)).2
    rw [← same]
    exact later

/-- An interaction that tells its exchanges is recorded request by request. -/
theorem perform_recorded {interaction : Interaction α} (tells : interaction.TellsExchanges)
    (recording : watch.recorder = some recorder) (shares : recorder.Shares database place)
    (keeps : Keeps database place store machine) (served : StatusesFit machine.executor)
    (sent : (machine.run (interaction.perform watch.observe)).2.requests = machine.requests ++ made)
    (room : store.lastId + made.length ≤ Column.greatest) :
    ∃ last, Keeps database place last (machine.run (interaction.perform watch.observe)).2 ∧
      Recorded watch.project machine.executor machine.requests store made last := by
  induction tells generalizing machine store made with
  | done result =>
    obtain rfl : made = [] := List.append_cancel_left (sent.symm.trans (List.append_nil _).symm)
    exact ⟨store, keeps, .nil⟩
  | @call request rest _ ih =>
    have goesOn : machine.run ((Interaction.call request fun answer =>
          .note (.exchange request answer.outcome answer.elapsed) (rest answer)).perform watch.observe) =
        (exchanged watch request machine).run ((rest (machine.send request).1).perform watch.observe) := rfl
    obtain ⟨executor, asked⟩ := exchanged_server watch request machine
    obtain ⟨tail, whole⟩ := requests_prefix (rest (machine.send request).1) watch (exchanged watch request machine)
    rw [goesOn] at sent ⊢
    obtain rfl : request :: tail = made := by
      rw [sent, asked, List.append_assoc] at whole
      exact List.append_cancel_left whole
    rw [List.length_cons] at room
    obtain ⟨entry, tells, kept⟩ :=
      exchanged_keeps recording shares keeps served (decide_eq_false (by omega)) request
    have left : (store.record entry).2.lastId + tail.length ≤ Column.greatest := by
      change store.lastId + 1 + tail.length ≤ Column.greatest
      omega
    rw [← executor] at served
    obtain ⟨last, held, all⟩ := ih _ kept served whole.symm left
    rw [executor, asked] at all
    exact ⟨last, held, .cons entry keeps.1 tells all⟩
  | @wait millis resume _ ih =>
    have waited : Keeps database place store (machine.waited millis) := keeps.of_files rfl rfl
    exact ih machine.canceled waited served sent room
  | @note content rest other _ ih =>
    have server : (machine.run (watch.observe content)).2.SameServer machine := leavesServer_observe watch content machine
    rw [← server.executor] at served ⊢
    rw [← server.requests] at sent ⊢
    exact ih (observe_other other keeps) served sent room

end Machine

namespace Engine

/-- A run whose history can be written adds to it, in the order of their identifiers, exactly one entry for each request
that it sends, in the order of the requests: each tells its request, the project, and the reply or the cause that came
back, and is read back as long as a row can hold it. -/
theorem carryOut_recorded (options : RunOptions) (scenario : Scenario) (start : Start)
    (recording : watch.recorder = some recorder) (shares : recorder.Shares database place)
    (keeps : Keeps database place store machine) (served : StatusesFit machine.executor) :
    let after := (carryOutOn options scenario start watch machine).2
    ∃ made, after.requests = machine.requests ++ made ∧
      (store.lastId + made.length ≤ Column.greatest →
        ∃ last added, Keeps database place last after ∧ last.rows = store.rows ++ added ∧ added.length = made.length ∧
          ∀ index request, made[index]? = some request → ∃ entry : HistoryEntry,
            added[index]? = some (.ofEntry (store.lastId + 1 + index) entry) ∧
            entry.Tells watch.project request (outcomeOf machine.executor (machine.requests ++ made.take index) request) ∧
            (entry.Storable → ∀ reader : Recorder, reader.Shares database place →
              after.run (reader.get (store.lastId + 1 + index)) =
                (.ok (entry.kept (store.lastId + 1 + index)), after))) := by
  intro after
  obtain ⟨made, sent⟩ := requests_prefix (run options scenario (start.told machine.canceled)) watch machine
  refine ⟨made, sent.symm, fun room => ?_⟩
  obtain ⟨last, kept, recorded⟩ := perform_recorded (run_tells options scenario (start.told machine.canceled))
    recording shares keeps served sent.symm room
  obtain ⟨added, grown, long, each⟩ := recorded.exists_rows
  refine ⟨last, added, kept, grown, long, fun index request inside => ?_⟩
  obtain ⟨entry, row, tells, read⟩ := each index request inside
  refine ⟨entry, row, tells, fun storable reader joins => ?_⟩
  have found := Recorder.get_eq joins kept (store.lastId + 1 + index)
  rw [read storable] at found
  exact found

/-- A scenario of one step that is tried again. -/
def stubborn : Scenario :=
  { id := "stubborn", name := "stubborn"
    flow := .graph [{ Plan.plainStep "only" 0 with options := { retry := 1 } }] [] }

/-- A machine with an empty history. Its server refuses the first request; the run is canceled while the second one is in
flight. -/
def archive : Machine where
  tree := ⟨[(["history.db"], .file (some ""))]⟩
  executor earlier _ := some {
    outcome := if earlier.isEmpty then .error { cause := "refused" } else .ok { status := 200 }
    cancels := !earlier.isEmpty }

/-- Whoever follows a run for a project with a history. -/
def archivist : Command.Watch where
  output := .json
  color := false
  recorder := some { database := "history.db" }
  project := some "demo"

theorem stubborn_recorded :
    Keeps "history.db" ["history.db"] {} archive ∧ StatusesFit archive.executor ∧
      ∃ last, Keeps "history.db" ["history.db"] last (carryOutOn {} stubborn plainStart archivist archive).2 ∧
        last.rows.length = 2 := by
  have keeps : Keeps "history.db" ["history.db"] {} archive := ⟨Store.sound_empty, "", ⟨rfl, rfl, rfl⟩, rfl⟩
  have shares : Recorder.Shares { database := "history.db" } "history.db" ["history.db"] :=
    ⟨rfl, fun logs => by cases logs⟩
  have served : StatusesFit archive.executor := by
    intro earlier request reply outcome
    simp only [outcomeOf, archive, Option.getD_some] at outcome
    split at outcome
    · cases outcome
    · cases outcome
      decide
  have recording : archivist.recorder = some { database := "history.db" } := rfl
  obtain ⟨made, sent, recorded⟩ := carryOut_recorded {} stubborn plainStart recording shares keeps served
  have two : made.length = 2 := by
    have requests : (carryOutOn {} stubborn plainStart archivist archive).2.requests.length = 2 := by decide +kernel
    rwa [sent, List.length_append, show archive.requests.length = 0 from rfl, Nat.zero_add] at requests
  obtain ⟨last, added, kept, grown, long, -⟩ := recorded (by rw [two]; decide)
  exact ⟨keeps, served, last, kept, by rw [grown, List.length_append, long, two]; rfl⟩

end Engine
end Runbook

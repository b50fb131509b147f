import Runbook.Proofs.History.AppendOnly
import Runbook.Proofs.History.Overrides
import Runbook.Proofs.Observer.Recorded

/-!
Replays. A recorded request is sent once more with some of its headers given other values, and what comes back is
recorded as an entry of its own; where there is no such request, nothing is sent and nothing is recorded.
-/

namespace Runbook

open Runbook.Text

/-- The entry of an exchange tells the exchange. -/
theorem HistoryEntry.tells_ofExchange (timestamp : Time.Instant) (project : Option String) (request : Request)
    (outcome : Outcome) : (ofExchange timestamp project request outcome).Tells project request outcome := by
  cases outcome with
  | ok reply => exact tells_ofAttempt timestamp project request (.ok reply) reply.millis
  | error error => exact tells_ofAttempt timestamp project request (.error error) 0

namespace History

/-! What is read from a row -/

namespace Row

variable {row : Row} {entry : HistoryEntry}

theorem sorted_headersOf {content : String} {headers : Dict String} (read : headersOf content = .ok headers) :
    headers.Sorted := by
  unfold headersOf at read
  split at read
  · next found =>
    cases read
    obtain ⟨value, -, texts⟩ := Option.bind_eq_some_iff.mp found
    obtain ⟨fields, -, paired⟩ := Option.bind_eq_some_iff.mp texts
    obtain ⟨pairs, -, rfl⟩ := Option.map_eq_some_iff.mp paired
    exact Dict.sorted_ofPairs pairs
  · cases read

/-- The entry of a row has the identifier of the row, and the names of its headers in order. -/
theorem of_entry (read : row.entry = .ok entry) : entry.id = row.id ∧ entry.requestHeaders.Sorted := by
  unfold Row.entry at read
  obtain ⟨timestamp, -, read⟩ := bind_eq_ok_iff.mp read
  split at read
  · obtain ⟨status, -, read⟩ := bind_eq_ok_iff.mp read
    -- What follows the status is read in the same way whether there is one or not.
    cases status with
    | none =>
      simp only [bind_eq_ok_iff] at read
      obtain ⟨_, -, _, -, _, -, _, -, _, -, headers, held, _, -, _, -, _, -, _, -, _, -, _, -, whole⟩ := read
      cases whole
      exact ⟨rfl, sorted_headersOf held⟩
    | some value =>
      dsimp only at read
      split at read
      · simp only [bind_eq_ok_iff] at read
        obtain ⟨_, -, _, -, _, -, _, -, _, -, headers, held, _, -, _, -, _, -, _, -, _, -, _, -, whole⟩ := read
        cases whole
        exact ⟨rfl, sorted_headersOf held⟩
      · cases read
  · cases read

end Row

theorem Store.of_get {store : Store} {id : Int} {recorded : HistoryEntry} (found : store.get id = .ok recorded) :
    recorded.id = id ∧ recorded.requestHeaders.Sorted := by
  unfold Store.get at found
  split at found
  · cases found
  · next row held =>
    obtain ⟨_, -, found⟩ := bind_eq_ok_iff.mp found
    have same : row.id = id := by simpa using List.find?_some held
    rw [← same]
    exact Row.of_entry (mapError_eq_ok_iff.mp found)

/-! What is sent -/

/-- A request sends an entry again, with overrides. -/
structure Resends (recorded : HistoryEntry) (overrides : Dict String) (timeout : Nat) (request : Request) : Prop where
  method : request.method.name = upper recorded.method
  url : request.url = recorded.url
  headers : Overridden recorded.requestHeaders overrides request.headers
  body : request.body = recorded.requestBody
  timeout : request.timeout = timeout

variable {recorded : HistoryEntry} {overrides : Dict String} {timeout : Nat}

/-- An entry of no known method is not sent again. -/
theorem replayRequest_error (unknown : ∀ method : Method, method.name ≠ upper recorded.method) :
    replayRequest recorded overrides timeout = .error (.corrupt recorded.id (.method recorded.method)) := by
  have none : Method.read? recorded.method = none :=
    Option.eq_none_iff_forall_ne_some.mpr fun method read => unknown method (Method.read?_eq_some_iff.mp read)
  rw [replayRequest, none]

theorem exists_replayRequest (known : ∃ method : Method, method.name = upper recorded.method)
    (sorted : recorded.requestHeaders.Sorted) :
    ∃ request, replayRequest recorded overrides timeout = .ok request ∧ Resends recorded overrides timeout request := by
  obtain ⟨method, named⟩ := known
  unfold replayRequest
  rw [Method.read?_eq_some_iff.mpr named]
  exact ⟨_, rfl, named, rfl, overridden_overrideHeaders sorted overrides, rfl, rfl⟩

/-- The replies of an executor can be recorded: their statuses fit their column, and the names of their headers are in
order. -/
structure RepliesFit (executor : Interaction.Executor) : Prop where
  statuses : StatusesFit executor
  headers : ∀ earlier request reply, outcomeOf executor earlier request = .ok reply → reply.headers.Sorted

/-- The entry of an exchange with an executor can be recorded. -/
theorem RepliesFit.storable {executor : Interaction.Executor} (served : RepliesFit executor) {earlier : List Request}
    {request : Request} (sorted : request.headers.Sorted) {timestamp : Time.Instant} (dated : timestamp.IsDated)
    (project : Option String) :
    (HistoryEntry.ofExchange timestamp project request (outcomeOf executor earlier request)).Storable where
  timestamp := dated
  status := status_ofExchange (served.statuses earlier request) timestamp project request
  requestHeaders := sorted
  responseHeaders := by
    cases came : outcomeOf executor earlier request with
    | error error => exact List.Pairwise.nil
    | ok reply => exact served.headers earlier request reply came

variable {database : String} {place : Place} {store : Store} {machine : Machine} {recorder : Recorder}

/-- Where no entry can be read under an identifier, or one without a known method, a replay fails and changes nothing.
Otherwise it sends one request, which is that of the entry but for the overrides, and while identifiers are left it adds
one entry to the store, whether a reply came back or not: the entry tells the request, the project of the first one, and
what came back; it is returned with its new identifier, and read back from then on as long as its time is dated. All
earlier entries are read as before. -/
theorem replay_resends (shares : recorder.Shares database place) (keeps : Keeps database place store machine)
    (served : RepliesFit machine.executor) (room : store.isFull = false) (id : Int) (overrides : Dict String)
    (timeout : Nat) :
    let result := (machine.run (recorder.replay id overrides timeout)).1
    let after := (machine.run (recorder.replay id overrides timeout)).2
    (id ∉ store.rows.map Row.id → result = .error (.notFound id) ∧ after = machine) ∧
    (∀ error, store.get id = .error error → result = .error error ∧ after = machine) ∧
    ∀ recorded, store.get id = .ok recorded →
      ((∀ method : Method, method.name ≠ upper recorded.method) →
        result = .error (.corrupt id (.method recorded.method)) ∧ after = machine) ∧
      ((∃ method : Method, method.name = upper recorded.method) → ∃ (request : Request) (entry : HistoryEntry),
        Resends recorded overrides timeout request ∧
        after.requests = machine.requests ++ [request] ∧
        entry.Tells recorded.project request (outcomeOf machine.executor machine.requests request) ∧
        entry.timestamp = (machine.send request).2.clock ∧
        result = .ok { entry with id := store.lastId + 1 } ∧
        Keeps database place ⟨store.rows ++ [.ofEntry (store.lastId + 1) entry], store.lastId + 1⟩ after ∧
        ∀ reader : Recorder, reader.Shares database place →
          (entry.timestamp.IsDated →
            after.run (reader.get (store.lastId + 1)) = (.ok (entry.kept (store.lastId + 1)), after)) ∧
          ∀ earlier ∈ store.rows.map Row.id, after.run (reader.get earlier) = (store.get earlier, after)) := by
  intro result after
  have fails {error : StoreError} (missing : store.get id = .error error) :
      result = .error error ∧ after = machine := by
    have ran := @Recorder.replay_error _ _ _ _ _ _ overrides timeout _ shares keeps missing
    exact ⟨congrArg Prod.fst ran, congrArg Prod.snd ran⟩
  refine ⟨fun missing => fails (Store.get_eq_notFound missing), fun error missing => fails missing,
    fun recorded found => ⟨fun unknown => ?_, fun known => ?_⟩⟩
  · have ran := Recorder.replay_refused shares keeps found (@replayRequest_error _ overrides timeout unknown)
    rw [(Store.of_get found).1] at ran
    exact ⟨congrArg Prod.fst ran, congrArg Prod.snd ran⟩
  · obtain ⟨request, made, resends⟩ := @exists_replayRequest _ overrides timeout known (Store.of_get found).2
    obtain ⟨last, ran, kept, server⟩ := Recorder.replay_eq shares keeps served.statuses room found made
    have ended : after = last := congrArg Prod.snd ran
    rw [ended]
    refine ⟨request, _, resends, server.requests, HistoryEntry.tells_ofExchange _ _ _ _, rfl, congrArg Prod.fst ran, kept,
      fun reader joins => ⟨fun dated => ?_, fun earlier held => ?_⟩⟩
    · rw [Recorder.get_eq joins kept]
      exact congrArg (·, last) (Store.get_record keeps.1 (served.storable resends.headers.sorted dated _))
    · rw [Recorder.get_eq joins kept, (Store.extends_record store _).get_eq held]

/-- A request that was recorded with two headers of one name. -/
def letter : HistoryEntry :=
  { visit with
    project := some "demo"
    method := "post"
    requestHeaders := [("Accept", "text/html"), ("Host", "localhost"), ("accept", "text/plain")]
    requestBody := some "hello" }

/-- Two overrides of one name. -/
def stamps : Dict String := [("ACCEPT", "image/png"), ("aCCEPT", "image/gif")]

/-- The history that holds the letter. -/
def pigeonhole : Store := (Store.record letter {}).2

/-- A machine with that history. -/
def mailroom : Machine := { desk with tree := ⟨[(["history.db"], .file (some pigeonhole.text))]⟩ }

theorem letter_storable : letter.Storable where
  timestamp := ⟨by decide, .inl (by decide)⟩
  status status member := by
    cases member
    decide
  requestHeaders := by
    unfold Dict.Sorted
    decide +kernel
  responseHeaders := .nil

theorem mailroom_keeps : Keeps "history.db" ["history.db"] pigeonhole mailroom := by
  have sound : pigeonhole.Sound := Store.sound_empty.record rfl letter_storable.status
  exact ⟨sound, pigeonhole.text, ⟨rfl, rfl, rfl⟩, Store.read?_text sound⟩

theorem get_pigeonhole : pigeonhole.get 1 = .ok (letter.kept 1) := by
  have first : (Store.record letter {}).1 = 1 := rfl
  have read := Store.get_record Store.sound_empty letter_storable
  rw [first] at read
  exact read

/-- The letter is sent again with its host and one header of the name that both overrides have, and what comes back
joins the history. There is nothing to send under another identifier. -/
theorem letter_resent :
    (∃ (request : Request) (entry : HistoryEntry), ("Host", "localhost") ∈ request.headers ∧
      (request.headers.filter fun header => sameName header.1 "ACCEPT").length = 1 ∧
      (mailroom.run (guest.replay 1 stamps 1000)).2.requests = [request] ∧ entry.project = some "demo" ∧
      (mailroom.run (guest.replay 1 stamps 1000)).1 = .ok { entry with id := 2 } ∧
      (mailroom.run (guest.replay 1 stamps 1000)).2.run (guest.get 2) =
        (.ok (entry.kept 2), (mailroom.run (guest.replay 1 stamps 1000)).2)) ∧
    (mailroom.run (guest.replay 7 stamps 1000)).1 = .error (.notFound 7) := by
  have served : RepliesFit mailroom.executor := by
    refine ⟨fun earlier request reply came => ?_, fun earlier request reply came => ?_⟩
    · cases came
      decide
    · cases came
      exact List.Pairwise.nil
  have room : pigeonhole.isFull = false := by decide
  constructor
  · obtain ⟨-, -, resends⟩ := replay_resends guest_shares mailroom_keeps served room 1 stamps 1000
    obtain ⟨request, entry, sends, sent, tells, told, result, -, reads⟩ := (resends _ get_pigeonhole).2 ⟨.post, by decide⟩
    have dated : entry.timestamp.IsDated := by
      have epoch : Time.Instant.after ⟨0, 0⟩ 0 = ⟨0, 0⟩ := by decide
      have same : (mailroom.send request).2.clock = Time.Instant.after ⟨0, 0⟩ 0 := rfl
      rw [told, same, epoch]
      exact ⟨by decide, .inl (by decide)⟩
    refine ⟨request, entry, ?_, ?_, sent, tells.project, result, (reads guest guest_shares).1 dated⟩
    · exact sends.headers.kept _ (.tail _ (.head _)) (by decide)
    · obtain ⟨header, -, one⟩ := sends.headers.replaced ("ACCEPT", "image/png") (.head _)
      rw [one]
      rfl
  · obtain ⟨missing, -⟩ := replay_resends guest_shares mailroom_keeps served room 7 stamps 1000
    exact (missing (by decide)).1

end History
end Runbook

import Runbook.Proofs.History.Operations

/-!
The history is append-only. Recorders that share a store take turns in any order; whatever they do, the store only
grows, each new entry stands under an identifier above all earlier ones, and from then on it is read back as it was
recorded.
-/

namespace Runbook.History

open Machine

variable {database : String} {place : Place} {store next last : Store} {machine : Machine} {recorder : Recorder}
  {work : List (Recorder × Operation)} {responses : List Response}

/-- Operations one after another, each with its recorder. -/
def performAll (work : List (Recorder × Operation)) : StateM Machine (List Response) :=
  work.mapM fun job => job.2.perform job.1

/-- An operation that came to a response recorded an entry under an identifier. -/
inductive Operation.Records : Operation → Response → Int → HistoryEntry → Prop
  | record (entry : HistoryEntry) (id : Int) : Records (.record entry) (.recorded (.ok id)) id entry
  | replay (id : Int) (overrides : Dict String) (timeout : Nat) (entry : HistoryEntry) :
      Records (.replay id overrides timeout) (.replayed (.ok entry)) entry.id entry

namespace Operation.Does

variable {operation : Operation} {response : Response}

theorem extends_store (does : operation.Does store response next) : next.Extends store := by
  cases does with
  | record entry => exact Store.extends_record store entry
  | replay _ _ _ entry => exact Store.extends_record store entry
  | _ => exact .refl store

/-- The new row is the one whose identifier the response tells. -/
theorem ids_eq (does : operation.Does store response next) :
    next.rows.map Row.id = store.rows.map Row.id ++ response.newId?.toList := by
  cases does with
  | record entry => exact Store.ids_record store entry
  | replay _ _ _ entry => exact Store.ids_record store entry
  | _ => exact (List.append_nil _).symm

/-- What an operation recorded can be read from the store afterwards. -/
theorem get_eq (does : operation.Does store response next) (sound : store.Sound) {id : Int} {entry : HistoryEntry}
    (records : operation.Records response id entry) (storable : entry.Storable) :
    id ∈ next.rows.map Row.id ∧ next.get id = .ok (entry.kept id) := by
  have told : response.newId? = some id := by cases records <;> rfl
  constructor
  · rw [does.ids_eq, told]
    exact List.mem_append_right _ (List.mem_singleton_self id)
  · cases records with
    | record =>
      cases does
      exact Store.get_record sound storable
    | replay =>
      -- The identifier that the entry itself tells is not recorded.
      cases does
      have read := Store.get_record sound storable
      exact read

end Operation.Does

/-- What operations come to on a store that is sound all the time. -/
inductive DoAll : Store → List (Recorder × Operation) → List Response → Store → Prop
  | nil {store : Store} (sound : store.Sound) : DoAll store [] [] store
  | cons {store next last : Store} {recorder : Recorder} {operation : Operation} {response : Response}
      {work : List (Recorder × Operation)} {responses : List Response} (sound : store.Sound)
      (first : operation.Does store response next) (rest : DoAll next work responses last) :
      DoAll store ((recorder, operation) :: work) (response :: responses) last

namespace DoAll

theorem sound (all : DoAll store work responses last) : last.Sound := by
  induction all with
  | nil sound => exact sound
  | cons _ _ _ ih => exact ih

theorem length_eq (all : DoAll store work responses last) : responses.length = work.length := by
  induction all with
  | nil => rfl
  | cons _ _ _ ih => rw [List.length_cons, List.length_cons, ih]

theorem extends_store (all : DoAll store work responses last) : last.Extends store := by
  induction all with
  | nil => exact .refl _
  | cons _ first _ ih => exact ih.trans first.extends_store

theorem ids_eq (all : DoAll store work responses last) :
    last.rows.map Row.id = store.rows.map Row.id ++ responses.filterMap Response.newId? := by
  induction all with
  | nil => exact (List.append_nil _).symm
  | @cons _ _ _ _ _ response _ responses _ first _ ih =>
    rw [ih, first.ids_eq, List.append_assoc]
    cases told : response.newId? with
    | none => rw [List.filterMap_cons_none told]; rfl
    | some id => rw [List.filterMap_cons_some told]; rfl

/-- What was recorded on the way can be read from the store at the end. -/
theorem get_eq (all : DoAll store work responses last) {job : Recorder × Operation} {response : Response} {id : Int}
    {entry : HistoryEntry} (member : (job, response) ∈ work.zip responses)
    (records : job.2.Records response id entry) (storable : entry.Storable) :
    last.get id = .ok (entry.kept id) := by
  induction all with
  | nil => cases member
  | cons sound first rest ih =>
    rcases List.mem_cons.mp member with here | later
    · cases here
      obtain ⟨held, read⟩ := first.get_eq sound records storable
      rw [rest.extends_store.get_eq held, read]
    · exact ih later

/-- Nothing is refused to be recorded but by a store whose last identifier is given. -/
theorem full_of_fails (all : DoAll store work responses last) {job : Recorder × Operation} {response : Response}
    {entry : HistoryEntry} (member : (job, response) ∈ work.zip responses) (operation : job.2 = .record entry) :
    (∃ id, response = .recorded (.ok id)) ∨
      response = .recorded (.error (.database "insert history record" .full)) ∧ last.isFull = true := by
  induction all with
  | nil => cases member
  | cons sound first rest ih =>
    rcases List.mem_cons.mp member with here | later
    · cases here
      subst operation
      cases first with
      | record _ room => exact .inl ⟨_, rfl⟩
      | recordFails _ full =>
        have reached := Int.le_trans (of_decide_eq_true full) rest.extends_store.last
        exact .inr ⟨rfl, decide_eq_true reached⟩
    · exact ih later

end DoAll

/-- Operations on a machine do with the store what they may do. -/
theorem performAll_doAll (keeps : Keeps database place store machine) (served : StatusesFit machine.executor)
    (joined : ∀ job ∈ work, job.1.Shares database place ∧ job.2.Fits) :
    ∃ responses after last, machine.run (performAll work) = (responses, after) ∧ Keeps database place last after ∧
      DoAll store work responses last := by
  induction work generalizing store machine with
  | nil => exact ⟨[], machine, store, rfl, keeps, .nil keeps.1⟩
  | cons job work ih =>
    obtain ⟨shares, fits⟩ := joined job List.mem_cons_self
    obtain ⟨response, middle, next, first, kept, server, does⟩ := Operation.perform_does shares keeps served fits
    rw [← server] at served
    obtain ⟨responses, after, last, rest, held, all⟩ :=
      ih kept served fun other member => joined other (List.mem_cons_of_mem job member)
    refine ⟨response :: responses, after, last, ?_, held, .cons keeps.1 does all⟩
    unfold performAll
    rw [List.mapM_cons, run_bind first]
    exact run_bind rest

/-- What holds of recorders that share a store, after operations with their responses: a history that only grows. -/
structure AppendOnly (database : String) (place : Place) (store : Store) (work : List (Recorder × Operation))
    (responses : List Response) (after : Machine) : Prop where
  answered : responses.length = work.length
  /-- New identifiers grow. -/
  ascending : (responses.filterMap Response.newId?).Pairwise (· < ·)
  /-- They are above every identifier that was given before. -/
  fresh : ∀ id ∈ responses.filterMap Response.newId?, store.lastId < id
  /-- What was recorded is read back. -/
  recorded : ∀ job response id entry, (job, response) ∈ work.zip responses → job.2.Records response id entry →
    entry.Storable → ∀ reader : Recorder, reader.Shares database place →
      after.run (reader.get id) = (.ok (entry.kept id), after)
  /-- What was there before is read as it was. -/
  earlier : ∀ id ∈ store.rows.map Row.id, ∀ reader : Recorder, reader.Shares database place →
    after.run (reader.get id) = (store.get id, after)
  /-- There is nothing under any other identifier. -/
  missing : ∀ id, id ∉ store.rows.map Row.id → id ∉ responses.filterMap Response.newId? →
    ∀ reader : Recorder, reader.Shares database place → after.run (reader.get id) = (.error (.notFound id), after)
  /-- Recording only fails once the last identifier is given. -/
  succeeds : ∀ job response entry, (job, response) ∈ work.zip responses → job.2 = .record entry →
    (∃ id, response = .recorded (.ok id)) ∨
      response = .recorded (.error (.database "insert history record" .full)) ∧
        ∃ last, Keeps database place last after ∧ last.isFull = true

/-- Whatever recorders do that share a store, in any order, the history only grows and gives back what was recorded; and
reading it changes nothing on any machine. -/
theorem performAll_append_only (keeps : Keeps database place store machine) (served : StatusesFit machine.executor)
    (joined : ∀ job ∈ work, job.1.Shares database place ∧ job.2.Fits) :
    AppendOnly database place store work (machine.run (performAll work)).1 (machine.run (performAll work)).2 ∧
      ∀ (reader : Recorder) (twin : Machine) (id : Int) (filter : Filter),
        (twin.run (reader.get id)).2 = twin ∧ (twin.run (reader.query filter)).2 = twin := by
  constructor
  · obtain ⟨responses, after, last, ran, kept, all⟩ := performAll_doAll keeps served joined
    rw [ran]
    obtain ⟨added, grown, above⟩ := all.extends_store.rows
    have given : added.map Row.id = responses.filterMap Response.newId? := by
      have ids := all.ids_eq
      rw [grown, List.map_append] at ids
      exact List.append_cancel_left ids
    have ascending : (added.map Row.id).Pairwise (· < ·) := by
      have whole := kept.1.ascending
      rw [grown] at whole
      exact List.pairwise_map.mpr (List.pairwise_append.mp whole).2.1
    exact {
      answered := all.length_eq
      ascending := by
        rw [← given]
        exact ascending
      fresh := by
        intro id member
        rw [← given] at member
        obtain ⟨row, inside, rfl⟩ := List.mem_map.mp member
        exact above row inside
      recorded := by
        intro job response id entry member records storable reader shares
        rw [Recorder.get_eq shares kept, all.get_eq member records storable]
      earlier := by
        intro id held reader shares
        rw [Recorder.get_eq shares kept, all.extends_store.get_eq held]
      missing := by
        intro id before behind reader shares
        have nowhere : id ∉ last.rows.map Row.id := by
          rw [all.ids_eq, List.mem_append]
          exact not_or.mpr ⟨before, behind⟩
        rw [Recorder.get_eq shares kept, Store.get_eq_notFound nowhere]
      succeeds := by
        intro job response entry member operation
        rcases all.full_of_fails member operation with given | ⟨refused, full⟩
        · exact .inl given
        · exact .inr ⟨refused, last, kept, full⟩ }
  · intro reader twin id filter
    exact ⟨Recorder.load_unchanged reader twin, Recorder.load_unchanged reader twin⟩

/-- A machine with an empty store and a server that answers every request alike. -/
def desk : Machine where
  tree := ⟨[(["history.db"], .file (some ""))]⟩
  executor _ _ := some { outcome := .ok { status := 200 } }

/-- A recorder that also keeps logs. -/
def clerk : Recorder := { database := "history.db", logs := some "logs" }

/-- A recorder that keeps no logs. -/
def guest : Recorder := { database := "history.db" }

theorem desk_keeps : Keeps "history.db" ["history.db"] {} desk :=
  ⟨Store.sound_empty, "", ⟨rfl, rfl, rfl⟩, rfl⟩

theorem clerk_shares : clerk.Shares "history.db" ["history.db"] where
  database := rfl
  logs _ name member := by
    cases member
    decide

theorem guest_shares : guest.Shares "history.db" ["history.db"] where
  database := rfl
  logs kept := by cases kept

/-- A request that was answered in the first second of all. -/
def visit : HistoryEntry where
  timestamp := ⟨0, 0⟩
  method := "GET"
  url := "http://localhost/"
  requestHeaders := []
  requestBody := none
  status := some 204
  responseHeaders := []
  responseBody := some ""
  millis := 3

/-- What two recorders do with their store in turn. -/
def shift : List (Recorder × Operation) :=
  [(clerk, .record visit), (guest, .replay 1 [] 1000), (clerk, .get 2), (guest, .query {})]

theorem shift_append_only :
    Keeps "history.db" ["history.db"] {} desk ∧ StatusesFit desk.executor ∧
      (∀ job ∈ shift, job.1.Shares "history.db" ["history.db"] ∧ job.2.Fits) ∧
      AppendOnly "history.db" ["history.db"] {} shift (desk.run (performAll shift)).1 (desk.run (performAll shift)).2 ∧
      (desk.run (performAll shift)).1.filterMap Response.newId? = [1, 2] := by
  have served : StatusesFit desk.executor := by
    intro earlier request reply outcome
    cases outcome
    decide
  have joined : ∀ job ∈ shift, job.1.Shares "history.db" ["history.db"] ∧ job.2.Fits := by
    simp only [shift, List.forall_mem_cons]
    refine ⟨⟨clerk_shares, fun status member => ?_⟩, ⟨guest_shares, trivial⟩, ⟨clerk_shares, trivial⟩,
      ⟨guest_shares, trivial⟩, by simp⟩
    cases member
    decide
  exact ⟨desk_keeps, served, joined, (performAll_append_only desk_keeps served joined).1, by decide +kernel⟩

end Runbook.History

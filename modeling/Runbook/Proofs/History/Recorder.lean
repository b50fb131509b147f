import Runbook.History.Recorder
import Runbook.Proofs.History.Store
import Runbook.Proofs.Observer.Frame

/-!
The history on a machine. While the file of the store keeps a sound store, every recorder that shares it reads that
store, and what one of them records is in the store that the file keeps afterwards. Log files do not interfere.
-/

namespace Runbook.History

open Machine

/-- The ending of the name of a log file. -/
def logEnding : List Char := ".log".toList

theorem logName_suffix (entry : HistoryEntry) : logEnding <:+ (logName entry).toList := by
  unfold logName
  rw [String.toList_append]
  exact List.suffix_append _ _

theorem join_suffix {ending : List Char} {path : String} (base : String) (ends : ending <:+ path.toList) :
    ending <:+ (Pathname.join base path).toList := by
  unfold Pathname.join
  split
  · exact ends
  · split
    · rw [String.toList_append]
      exact ends.trans (List.suffix_append _ _)
    · rw [String.toList_append]
      exact ends.trans (List.suffix_append _ _)

/-- The pathname of a store leads to a place on a machine, and the file there keeps a sound store. -/
def Keeps (database : String) (place : Place) (store : Store) (machine : Machine) : Prop :=
  store.Sound ∧ ∃ content, machine.HasText database place content ∧ Store.read? content = some store

namespace Recorder

/-- A recorder uses the store of a pathname that leads to a place, and none of its log files can be at that place. -/
structure Shares (recorder : Recorder) (database : String) (place : Place) : Prop where
  database : recorder.database = database
  logs : recorder.logs.isSome → ∀ name ∈ place.getLast?, ¬logEnding <:+ name.toList

variable {recorder : Recorder} {database : String} {place : Place} {store : Store} {machine : Machine}

/-- What is written to log files leaves the store as it is. -/
theorem maintains_log {content : String} (apart : ∀ name ∈ place.getLast?, ¬logEnding <:+ name.toList)
    (directory : String) (entry : HistoryEntry) :
    Maintains (HasText database place content) (Recorder.log directory entry) := by
  refine Maintains.log HasText.maintains_makeDirectory (HasText.maintains_append fun tree workingDirectory located => ?_)
  have ends := join_suffix directory (logName_suffix entry)
  obtain ⟨name, last, inside⟩ := FileTree.exists_getLast?_of_place? (by decide) (by decide) ends located
  exact apart name last inside

/-- Whether a recorder keeps logs or not, what it writes to them leaves the store as it is. -/
theorem maintains_logs (shares : recorder.Shares database place) (entry : HistoryEntry) :
    Maintains (Keeps database place store) (recorder.logs.forM fun directory => Recorder.log directory entry) := by
  intro machine keeps
  cases kept : recorder.logs with
  | none => exact keeps
  | some directory =>
    obtain ⟨sound, content, has, read⟩ := keeps
    have apart := shares.logs (by rw [kept]; rfl)
    exact ⟨sound, content, maintains_log apart directory entry machine has, read⟩

/-- A recorder reads the store that the file keeps. -/
theorem load_eq (shares : recorder.Shares database place) (keeps : Keeps database place store machine) :
    machine.run recorder.load = (.ok store, machine) := by
  obtain ⟨-, content, has, read⟩ := keeps
  have text : machine.run (Files.readText recorder.database) = (.ok content, machine) := by
    rw [shares.database]
    exact has.readText
  unfold load
  rw [run_bind text]
  dsimp only
  rw [read]
  rfl

/-- A store is saved where the file is that keeps one. -/
theorem save_run (shares : recorder.Shares database place) (keeps : Keeps database place store machine) (task : String)
    (next : Store) : machine.run (recorder.save task next) =
      (.ok (), { machine with tree := machine.tree.put place (.file (some next.text)) }) := by
  obtain ⟨-, content, has, -⟩ := keeps
  have written := has.write_eq next.text
  rw [← shares.database] at written
  unfold save
  rw [run_bind written]
  rfl

/-- A store that is saved is the one that the file keeps. -/
theorem save_eq (shares : recorder.Shares database place) (keeps : Keeps database place store machine) (task : String)
    {next : Store} (sound : next.Sound) :
    ∃ after, machine.run (recorder.save task next) = (.ok (), after) ∧ Keeps database place next after := by
  have saving := save_run shares keeps task next
  obtain ⟨-, content, has, -⟩ := keeps
  exact ⟨_, saving, sound, next.text, has.put next.text, Store.read?_text sound⟩

/-- Reading the store changes nothing. -/
theorem load_unchanged (recorder : Recorder) (machine : Machine) : (machine.run recorder.load).2 = machine := by
  have read : machine.run (Files.readText recorder.database) =
      (machine.tree.readText machine.workingDirectory recorder.database, machine) := rfl
  unfold load
  rw [run_bind read]
  split <;> rfl

/-- Once the history is opened, the file keeps the store that was read behind making its directory. -/
theorem exists_keeps_of_open {after : Machine} (opened : machine.run recorder.open = (.ok (), after)) :
    ∃ (middle : Machine) (store : Store) (place : Place),
      machine.run (Files.makeDirectories ((Pathname.parent? recorder.database).getD "")) = (.ok (), middle) ∧
        middle.run recorder.load = (.ok store, middle) ∧ (store.Sound → Keeps recorder.database place store after) := by
  unfold «open» at opened
  rcases making : machine.run (Files.makeDirectories ((Pathname.parent? recorder.database).getD "")) with ⟨made, middle⟩
  rw [run_bind making] at opened
  cases made with
  | error error => cases opened
  | ok =>
    rcases loading : middle.run recorder.load with ⟨loaded, same⟩
    obtain rfl : same = middle := (congrArg Prod.snd loading).symm.trans (load_unchanged recorder middle)
    dsimp only at opened
    rw [run_bind loading] at opened
    cases loaded with
    | error error => cases opened
    | ok store =>
      rcases writing : same.run (Files.write recorder.database store.text) with ⟨written, last⟩
      dsimp only [save] at opened
      rw [run_bind writing] at opened
      cases written with
      | error error => cases opened
      | ok =>
        cases opened
        obtain ⟨place, has⟩ := HasText.of_write writing
        exact ⟨same, store, place, rfl, loading, fun sound => ⟨sound, store.text, has, Store.read?_text sound⟩⟩

/-- While identifiers are left the store is saved with an entry added, and then the entry is logged. -/
theorem record_run (shares : recorder.Shares database place) (keeps : Keeps database place store machine)
    (room : store.isFull = false) {entry : HistoryEntry} {saved after : Machine}
    (saving : machine.run (recorder.save "insert history record" (store.record entry).2) = (.ok (), saved))
    (logging : saved.run (recorder.logs.forM fun directory =>
      Recorder.log directory { entry with id := (store.record entry).1 }) = ((), after)) :
    machine.run (recorder.record entry) = (.ok (store.record entry).1, after) := by
  unfold record
  rw [run_bind (load_eq shares keeps)]
  dsimp only
  rw [room, if_neg Bool.false_ne_true, run_bind saving]
  dsimp only
  rw [run_bind logging]
  rfl

/-- While identifiers are left an entry is recorded under the next one, whatever becomes of the log file, and the server
is left alone. -/
theorem record_eq (shares : recorder.Shares database place) (keeps : Keeps database place store machine)
    (room : store.isFull = false) {entry : HistoryEntry}
    (status : ∀ status ∈ entry.status, status < Document.wordBound 16) :
    ∃ after, machine.run (recorder.record entry) = (.ok (store.record entry).1, after) ∧
      Keeps database place (store.record entry).2 after ∧ after.SameServer machine := by
  have sound := keeps.1.record room status
  obtain ⟨saved, saving, kept⟩ := save_eq shares keeps "insert history record" sound
  let logged : StateM Machine PUnit :=
    recorder.logs.forM fun directory => Recorder.log directory { entry with id := (store.record entry).1 }
  have recorded : machine.run (recorder.record entry) = (.ok (store.record entry).1, (saved.run logged).2) :=
    record_run shares keeps room saving rfl
  have server : (machine.run (recorder.record entry)).2.SameServer machine := leavesServer_record recorder entry machine
  rw [recorded] at server
  exact ⟨_, recorded, maintains_logs shares _ saved kept, server⟩

/-- Once the last identifier is given nothing is recorded. -/
theorem record_full (shares : recorder.Shares database place) (keeps : Keeps database place store machine)
    (full : store.isFull = true) (entry : HistoryEntry) :
    machine.run (recorder.record entry) = (.error (.database "insert history record" .full), machine) := by
  unfold record
  rw [run_bind (load_eq shares keeps)]
  dsimp only
  rw [full]
  rfl

theorem get_eq (shares : recorder.Shares database place) (keeps : Keeps database place store machine) (id : Int) :
    machine.run (recorder.get id) = (store.get id, machine) := by
  unfold get
  rw [run_bind (load_eq shares keeps)]
  rfl

theorem query_eq (shares : recorder.Shares database place) (keeps : Keeps database place store machine)
    (filter : Filter) : machine.run (recorder.query filter) = (store.query filter, machine) := by
  unfold query
  rw [run_bind (load_eq shares keeps)]
  rfl

end Recorder

/-! What comes back from the server -/

/-- What comes back from an executor for a request behind earlier ones. -/
def outcomeOf (executor : Interaction.Executor) (earlier : List Request) (request : Request) : Outcome :=
  ((executor earlier request).getD broken).outcome

/-- The statuses that come back from an executor fit their column. -/
def StatusesFit (executor : Interaction.Executor) : Prop :=
  ∀ earlier request reply, outcomeOf executor earlier request = .ok reply → reply.status < Document.wordBound 16

/-- What leaves the files of a machine alone leaves the store as it is. -/
theorem Keeps.of_files {database : String} {place : Place} {store : Store} {machine after : Machine}
    (keeps : Keeps database place store machine) (tree : after.tree = machine.tree)
    (directory : after.workingDirectory = machine.workingDirectory) : Keeps database place store after := by
  obtain ⟨sound, content, ⟨located, above, held⟩, read⟩ := keeps
  rw [← tree] at located above held
  rw [← directory] at located
  exact ⟨sound, content, ⟨located, above, held⟩, read⟩

/-- The status of an exchange is that of the reply. -/
theorem status_ofExchange {outcome : Outcome} (fits : ∀ reply, outcome = .ok reply → reply.status < Document.wordBound 16)
    (timestamp : Time.Instant) (project : Option String) (request : Request) :
    ∀ status ∈ (HistoryEntry.ofExchange timestamp project request outcome).status,
      status < Document.wordBound 16 := by
  intro status member
  cases outcome with
  | error error => cases member
  | ok reply =>
    cases member
    exact fits reply rfl

theorem status_ofAttempt {outcome : Outcome} (fits : ∀ reply, outcome = .ok reply → reply.status < Document.wordBound 16)
    (timestamp : Time.Instant) (project : Option String) (request : Request) (elapsed : Nat) :
    ∀ status ∈ (HistoryEntry.ofAttempt timestamp project request outcome elapsed).status,
      status < Document.wordBound 16 := by
  cases outcome with
  | error error => nofun
  | ok reply => exact status_ofExchange fits timestamp project request

end Runbook.History

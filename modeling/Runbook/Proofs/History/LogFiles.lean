import Mathlib.Algebra.BigOperators.Group.List.Lemmas
import Mathlib.Algebra.GroupWithZero.Nat
import Runbook.Proofs.Files.Kinds
import Runbook.Proofs.History.LogName
import Runbook.Proofs.History.Query
import Runbook.Proofs.Json.Text

/-!
Log files of a history. Whatever entries are recorded, each of them adds one line to the file of its name in the
directory of the logs, behind the lines of those before it; entries of one name share a file, and no other file changes.
-/

namespace Runbook

open Runbook.Text

namespace History

open Machine FileTree

variable {database directory name : String} {place site : Place} {store : Store} {machine : Machine}
  {recorder : Recorder} {entry : HistoryEntry} {names : List String} {texts : String → String}

/-! Lines -/

/-- The lines that entries add to the log file of a name. -/
def logged (name : String) (entries : List HistoryEntry) : String :=
  String.join ((entries.filter (logName · == name)).map logLine)

theorem logged_append (name : String) (front back : List HistoryEntry) :
    logged name (front ++ back) = logged name front ++ logged name back := by
  rw [logged, List.filter_append, List.map_append, String.join_append, logged, logged]

theorem logged_self (entry : HistoryEntry) : logged (logName entry) [entry] = logLine entry := by
  simp [logged, String.join_cons, String.join_nil]

theorem logged_other (apart : name ≠ logName entry) : logged name [entry] = "" := by
  simp [logged, Ne.symm apart]

/-- Each entry of the name adds one line. -/
theorem lines_logged (name : String) (entries : List HistoryEntry) :
    lines (logged name entries).toList =
      (entries.filter (logName · == name)).map fun entry => entry.toJson.compact.toList := by
  have whole : (logged name entries).toList =
      ((entries.filter (logName · == name)).map fun entry => entry.toJson.compact.toList).flatMap (· ++ ['\n']) := by
    rw [logged, String.toList_join, List.flatMap_map, List.flatMap_map]
    exact congrArg (List.flatMap · _) (funext fun entry => String.toList_append)
  have plain {c : Char} (control : c.toNat < 0x20) :
      ∀ text ∈ (entries.filter (logName · == name)).map fun entry => entry.toJson.compact.toList, c ∉ text := by
    intro text member
    obtain ⟨entry, -, rfl⟩ := List.mem_map.mp member
    exact (Json.visible_compact entry.toJson).not_mem control
  rw [whole]
  exact lines_flatMap (plain (by decide)) fun text member returned =>
    plain (by decide) text member (List.mem_of_getLast? returned)

/-- Every line is in one file. -/
theorem sum_length_lines_logged (entries : List HistoryEntry) :
    ((entries.map logName).dedup.map fun name => (lines (logged name entries).toList).length).sum =
      entries.length := by
  have each (name : String) :
      (lines (logged name entries).toList).length = (entries.map logName).count name := by
    rw [lines_logged, List.length_map, List.count, List.countP_map, List.countP_eq_length_filter]
    rfl
  simp only [each]
  rw [List.sum_map_count_dedup_eq_length, List.length_map]

theorem logged_ne_empty {entries : List HistoryEntry} (member : entry ∈ entries) :
    logged (logName entry) entries ≠ "" := by
  intro empty
  have none := lines_logged (logName entry) entries
  rw [empty] at none
  have inside : entry ∈ entries.filter (logName · == logName entry) := List.mem_filter.mpr ⟨member, beq_self_eq_true _⟩
  rw [List.map_eq_nil_iff.mp none.symm] at inside
  cases inside

/-- A line is read back as the document of its entry. -/
theorem read?_toJson (bound : Json.leastInt ≤ entry.id ∧ entry.id ≤ Json.greatestInt) (loggable : entry.Loggable) :
    Json.read? entry.toJson.compact = some entry.toJson := by
  have text? (content : Option String) : (Json.ofText? content).Writable ∧ (Json.ofText? content).depth = 0 := by
    cases content <;> exact ⟨trivial, rfl⟩
  have texts (held : Dict String) : (Json.ofTexts held).Writable ∧ (Json.ofTexts held).depth = 1 :=
    ⟨Json.writableFields_mapValues held, congrArg (· + 1) (Json.depthFields_mapValues held)⟩
  have number {n : Nat} (small : n < Document.wordBound 64) : (Json.int n).Writable := by
    change Json.leastInt ≤ (n : Int) ∧ (n : Int) ≤ Json.greatestInt
    simp only [Document.wordBound, Json.leastInt, Json.greatestInt, Nat.pow_eq] at small ⊢
    omega
  have status : (Json.ofNat? entry.status).Writable ∧ (Json.ofNat? entry.status).depth = 0 := by
    cases told : entry.status with
    | none => exact ⟨trivial, rfl⟩
    | some status => exact ⟨number (Nat.lt_of_lt_of_le (loggable.status status told) (by decide)), rfl⟩
  refine Json.read?_compact ?_ ?_
  · exact ⟨bound, trivial, (text? _).1, trivial, trivial, (texts _).1, (text? _).1, status.1, (texts _).1, (text? _).1,
      number loggable.millis, (text? _).1, trivial⟩
  · simp only [HistoryEntry.toJson, Json.depth, Json.depthFields, (text? _).2, (texts _).2, status.2]
    decide

/-! The directory of the logs -/

/-- The directory of the logs is there, at a place of a machine. -/
structure LogsAt (directory : String) (site : Place) (machine : Machine) : Prop where
  located : machine.tree.place? machine.workingDirectory directory = .ok site
  above : machine.tree.checkAbove site = .ok ()
  held : machine.tree.entry? site = some .directory

/-- The directory of the logs is there, or can be made at a place of a machine; and where the log files of some names
will be there is a file with a text, or nothing. -/
structure LogsHold (directory : String) (site : Place) (names : List String) (texts : String → String)
    (machine : Machine) : Prop where
  made : ∃ made, machine.run (Files.makeDirectories directory) = (.ok (), made) ∧ LogsAt directory site made ∧
    ∀ name ∈ names, made.tree.entry? (site ++ [name]) ≠ some .directory
  texts : ∀ name ∈ names, (machine.tree.fileAt? (site ++ [name])).getD (some "") = some (texts name)

namespace LogsAt

variable (logsAt : LogsAt directory site machine)
include logsAt

/-- The directory stays there whatever else is put into the tree, unless it stands in the way. -/
theorem put {other : Place} {entry : FileEntry} (free : machine.tree.entry? other ≠ some .directory) :
    LogsAt directory site { machine with tree := machine.tree.put other entry } :=
  ⟨(covers_put free).place?_eq logsAt.located, (covers_put free).checkAbove_eq logsAt.above,
    covers_put free site logsAt.held⟩

theorem of_alike {other : Machine} (alike : other.FilesAlike machine) : LogsAt directory site other := by
  obtain ⟨located, above, held⟩ := logsAt
  refine ⟨?_, ?_, alike.tree.directory_iff.mpr held⟩
  · rw [alike.workingDirectory, alike.tree.place?_eq, located]
  · rw [alike.tree.checkAbove_eq, above]

/-- A text is added to the log file of a name; where there is none, the file is made. -/
theorem append (isName : IsEntryName name) (free : machine.tree.entry? (site ++ [name]) ≠ some .directory)
    {text : String} (held : (machine.tree.fileAt? (site ++ [name])).getD (some "") = some text) (line : String) :
    machine.run (Files.append (Pathname.join directory name) line) =
      (.ok (), { machine with tree := machine.tree.put (site ++ [name]) (.file (some (text ++ line))) }) := by
  have led := place?_join isName logsAt.located logsAt.held
  have inside : machine.tree.checkAbove (site ++ [name]) = .ok () := by
    rw [checkAbove, List.dropLast_concat, logsAt.held]
  have appended : machine.tree.append machine.workingDirectory (Pathname.join directory name) line =
      .ok (machine.tree.put (site ++ [name]) (.file (some (text ++ line)))) := by
    unfold fileAt? at held
    unfold FileTree.append update
    rw [led]
    dsimp only [bind, Except.bind]
    rw [inside]
    cases found : machine.tree.entry? (site ++ [name]) with
    | none =>
      rw [found] at held
      cases held
      rfl
    | some entry =>
      cases entry with
      | directory => exact absurd found free
      | file content =>
        rw [found] at held
        obtain rfl : content = some text := held
        rfl
  exact change_of_ok appended

theorem readText (isName : IsEntryName name) {text : String}
    (held : machine.tree.fileAt? (site ++ [name]) = some (some text)) :
    machine.run (Files.readText (Pathname.join directory name)) = (.ok text, machine) := by
  have found : machine.tree.entry? (site ++ [name]) = some (.file (some text)) := by
    unfold fileAt? at held
    split at held
    · next content found =>
      cases held
      exact found
    · cases held
  have has : machine.HasText (Pathname.join directory name) (site ++ [name]) text := by
    refine ⟨place?_join isName logsAt.located logsAt.held, ?_, found⟩
    rw [checkAbove, List.dropLast_concat, logsAt.held]
  exact has.readText

theorem makeDirectories : machine.run (Files.makeDirectories directory) = (.ok (), machine) :=
  makeDirectories_eq logsAt.located logsAt.above logsAt.held

end LogsAt

namespace LogsHold

theorem of_logsAt (logsAt : LogsAt directory site machine)
    (free : ∀ name ∈ names, machine.tree.entry? (site ++ [name]) ≠ some .directory)
    (held : ∀ name ∈ names, (machine.tree.fileAt? (site ++ [name])).getD (some "") = some (texts name)) :
    LogsHold directory site names texts machine :=
  ⟨⟨machine, logsAt.makeDirectories, logsAt, free⟩, held⟩

variable (holds : LogsHold directory site names texts machine)
include holds

/-- A log file that is to hold a text is there. -/
theorem fileAt?_eq (member : name ∈ names) (filled : texts name ≠ "") :
    machine.tree.fileAt? (site ++ [name]) = some (some (texts name)) := by
  have held := holds.texts name member
  cases file : machine.tree.fileAt? (site ++ [name]) with
  | none =>
    rw [file] at held
    exact absurd (Option.some.inj held).symm filled
  | some content =>
    rw [file] at held
    exact congrArg some held

/-- A file elsewhere can get another text. -/
theorem put_elsewhere (apart : ∀ name ∈ names, site ++ [name] ≠ place) {content text : Option String}
    (stood : machine.tree.entry? place = some (.file content)) :
    LogsHold directory site names texts { machine with tree := machine.tree.put place (.file text) } := by
  obtain ⟨⟨made, making, logsAt, free⟩, held⟩ := holds
  have alike : FilesAlike { machine with tree := machine.tree.put place (.file text) } machine :=
    ⟨rfl, Alike.put_file stood⟩
  obtain ⟨later, remaking, after⟩ := (Agrees.makeDirectories directory).exists_run_eq alike making
  refine ⟨⟨later, remaking, logsAt.of_alike after, fun name member => ?_⟩, fun name member => ?_⟩
  · exact fun stands => free name member (after.tree.directory_iff.mp stands)
  · rw [fileAt?_put_ne (apart name member)]
    exact held name member

/-- An entry adds its line to the log file of its name, and to no other. -/
theorem log (isName : IsEntryName (logName entry)) (member : logName entry ∈ names) :
    ∃ after, machine.run (Recorder.log directory entry) = ((), after) ∧ LogsAt directory site after ∧
      LogsHold directory site names (fun name => texts name ++ logged name [entry]) after ∧
      ∀ other, other ≠ site ++ [logName entry] → after.tree.fileAt? other = machine.tree.fileAt? other := by
  obtain ⟨⟨made, making, logsAt, free⟩, held⟩ := holds
  have files (other : Place) : made.tree.fileAt? other = machine.tree.fileAt? other := by
    have same := fileAt?_makeDirectories machine directory other
    rwa [making] at same
  have before := held (logName entry) member
  rw [← files] at before
  have appended := logsAt.append isName (free _ member) before (logLine entry)
  have logging : machine.run (Recorder.log directory entry) = ((), { made with
      tree := made.tree.put (site ++ [logName entry]) (.file (some (texts (logName entry) ++ logLine entry))) }) := by
    unfold Recorder.log
    rw [run_bind making]
    exact run_discard appended
  have named : site ++ [logName entry] ≠ [] := List.append_ne_nil_of_right_ne_nil _ (List.cons_ne_nil _ _)
  have stays : LogsAt directory site { made with
      tree := made.tree.put (site ++ [logName entry]) (.file (some (texts (logName entry) ++ logLine entry))) } :=
    logsAt.put (free _ member)
  refine ⟨_, logging, stays, of_logsAt stays (fun name inside => ?_) (fun name inside => ?_), ?_⟩
  · by_cases same : name = logName entry
    · rw [same, entry?_put_self named]
      simp
    · rw [entry?_put_ne (by simpa using same)]
      exact free name inside
  · by_cases same : name = logName entry
    · rw [same, fileAt?_put_self named, logged_self]
      rfl
    · rw [fileAt?_put_ne (by simpa using same), files, held name inside, logged_other same, String.append_empty]
  · intro other apart
    rw [fileAt?_put_ne apart, files]

end LogsHold

/-- While identifiers are left an entry is recorded and adds its line to its log file; beside the store no other file
changes. -/
theorem record_logs (shares : recorder.Shares database place) (keeps : Keeps database place store machine)
    (logs : recorder.logs = some directory) (holds : LogsHold directory site names texts machine)
    (apart : ∀ name ∈ names, site ++ [name] ≠ place) (room : store.isFull = false) (loggable : entry.Loggable)
    (member : logName entry ∈ names) :
    ∃ after, machine.run (recorder.record entry) = (.ok (store.record entry).1, after) ∧
      Keeps database place (store.record entry).2 after ∧ LogsAt directory site after ∧
      LogsHold directory site names
        (fun name => texts name ++ logged name [{ entry with id := (store.record entry).1 }]) after ∧
      ∀ other, other ≠ place → other ≠ site ++ [logName entry] →
        after.tree.fileAt? other = machine.tree.fileAt? other := by
  have saving := Recorder.save_run shares keeps "insert history record" (store.record entry).2
  obtain ⟨-, content, has, -⟩ := id keeps
  have isName := isEntryName_logName (loggable.withId (store.record entry).1)
  obtain ⟨after, logging, stays, added, others⟩ := (holds.put_elsewhere apart has.held).log isName member
  have ran : machine.run (recorder.record entry) = (.ok (store.record entry).1, after) := by
    refine Recorder.record_run shares keeps room saving ?_
    rw [logs]
    exact logging
  obtain ⟨same, again, kept, -⟩ := Recorder.record_eq shares keeps room loggable.status
  obtain rfl : after = same := congrArg Prod.snd (ran.symm.trans again)
  refine ⟨after, ran, kept, stays, added, fun other ofStore ofLog => ?_⟩
  rw [others other ofLog]
  exact fileAt?_put_ne ofStore

/-! Recordings one after another -/

/-- The entries that were recorded, each under the identifier that the store gave it. -/
def recorded (work : List (Recorder × HistoryEntry)) (results : List (Except StoreError Int)) : List HistoryEntry :=
  (work.zip results).filterMap fun done => done.2.toOption.map fun id => { done.1.2 with id }

variable {work : List (Recorder × HistoryEntry)} {results : List (Except StoreError Int)}
  {job : Recorder × HistoryEntry}

theorem recorded_ok (id : Int) :
    recorded (job :: work) (.ok id :: results) = { job.2 with id } :: recorded work results := rfl

theorem exists_of_mem_recorded (member : entry ∈ recorded work results) :
    ∃ job ∈ work, ∃ id, entry = { job.2 with id } := by
  obtain ⟨⟨job, result⟩, inside, made⟩ := List.mem_filterMap.mp member
  obtain ⟨id, -, rfl⟩ := Option.map_eq_some_iff.mp made
  exact ⟨job, (List.of_mem_zip inside).1, id, rfl⟩

/-- What recordings come to: those that succeeded are in the store and in the log files, in the same order. -/
structure Logs (database directory : String) (place site : Place) (names : List String) (texts : String → String)
    (store last : Store) (work : List (Recorder × HistoryEntry)) (results : List (Except StoreError Int))
    (machine after : Machine) : Prop where
  keeps : Keeps database place last after
  rows : last.rows = store.rows ++ (recorded work results).map fun entry => .ofEntry entry.id entry
  grows : store.lastId ≤ last.lastId
  holds : LogsHold directory site names (fun name => texts name ++ logged name (recorded work results)) after
  there : LogsAt directory site machine ∨ recorded work results ≠ [] → LogsAt directory site after
  others : ∀ other, other ≠ place → (∀ entry ∈ recorded work results, other ≠ site ++ [logName entry]) →
    after.tree.fileAt? other = machine.tree.fileAt? other
  answered : results.length = work.length
  succeeds : ∀ result ∈ results, (∃ id, result = .ok id) ∨
    result = .error (.database "insert history record" .full) ∧ last.isFull = true

namespace Logs

theorem nil (keeps : Keeps database place store machine) (holds : LogsHold directory site names texts machine) :
    Logs database directory place site names texts store store [] [] machine machine where
  keeps := keeps
  rows := (List.append_nil _).symm
  grows := Int.le_refl _
  holds := by simpa [logged, recorded, String.join_nil] using holds
  there := fun there => there.elim id fun some => absurd rfl some
  others := fun _ _ _ => rfl
  answered := rfl
  succeeds := nofun

variable {last : Store} {middle after : Machine}

/-- An entry that is refused is nowhere. -/
theorem refused (full : store.isFull = true)
    (all : Logs database directory place site names texts store last work results machine after) :
    Logs database directory place site names texts store last (job :: work)
      (.error (.database "insert history record" .full) :: results) machine after where
  keeps := all.keeps
  rows := all.rows
  grows := all.grows
  holds := all.holds
  there := all.there
  others := all.others
  answered := congrArg (· + 1) all.answered
  succeeds := by
    have still : last.isFull = true := decide_eq_true (Int.le_trans (of_decide_eq_true full) all.grows)
    exact List.forall_mem_cons.mpr ⟨.inr ⟨rfl, still⟩, all.succeeds⟩

/-- An entry that is recorded stands before those recorded later, in the store and in its log file. -/
theorem cons (stays : LogsAt directory site middle)
    (others : ∀ other, other ≠ place → other ≠ site ++ [logName job.2] →
      middle.tree.fileAt? other = machine.tree.fileAt? other)
    (all : Logs database directory place site names
      (fun name => texts name ++ logged name [{ job.2 with id := (store.record job.2).1 }]) (store.record job.2).2 last
      work results middle after) :
    Logs database directory place site names texts store last (job :: work) (.ok (store.record job.2).1 :: results)
      machine after where
  keeps := all.keeps
  rows := by
    rw [all.rows, recorded_ok, List.map_cons, Store.record, List.append_assoc, List.singleton_append]
    rfl
  grows := Int.le_trans (Store.extends_record store job.2).last all.grows
  holds := by
    have whole (name : String) :
        logged name ({ job.2 with id := (store.record job.2).1 } :: recorded work results) =
          logged name [{ job.2 with id := (store.record job.2).1 }] ++ logged name (recorded work results) :=
      logged_append name [_] _
    simp only [recorded_ok, whole, ← String.append_assoc]
    exact all.holds
  there := fun _ => all.there (.inl stays)
  others := by
    intro other ofStore ofLogs
    obtain ⟨ofLog, further⟩ := List.forall_mem_cons.mp ofLogs
    rw [all.others other ofStore further, others other ofStore ofLog]
  answered := congrArg (· + 1) all.answered
  succeeds := List.forall_mem_cons.mpr ⟨.inl ⟨_, rfl⟩, all.succeeds⟩

end Logs

/-- Entry by entry, the store and the log files take in what is recorded. -/
theorem recordAll_logs (keeps : Keeps database place store machine)
    (holds : LogsHold directory site names texts machine) (apart : ∀ name ∈ names, site ++ [name] ≠ place)
    (joined : ∀ job ∈ work, job.1.Shares database place ∧ job.1.logs = some directory ∧ job.2.Loggable ∧
      logName job.2 ∈ names) :
    ∃ results after last, machine.run (recordAll work) = (results, after) ∧
      Logs database directory place site names texts store last work results machine after := by
  induction work generalizing store machine texts with
  | nil => exact ⟨[], machine, store, rfl, .nil keeps holds⟩
  | cons job work ih =>
    obtain ⟨shares, logs, loggable, member⟩ := joined job List.mem_cons_self
    have later : ∀ other ∈ work, other.1.Shares database place ∧ other.1.logs = some directory ∧ other.2.Loggable ∧
        logName other.2 ∈ names := fun other inside => joined other (List.mem_cons_of_mem job inside)
    cases room : store.isFull with
    | true =>
      have first := recordAll_cons (Recorder.record_full shares keeps room job.2) work
      obtain ⟨results, after, last, ran, all⟩ := ih keeps holds later
      rw [ran] at first
      exact ⟨_, after, last, first, all.refused room⟩
    | false =>
      obtain ⟨middle, recording, kept, stays, added, others⟩ :=
        record_logs shares keeps logs holds apart room loggable member
      have first := recordAll_cons recording work
      obtain ⟨results, after, last, ran, all⟩ := ih kept added later
      rw [ran] at first
      exact ⟨_, after, last, first, .cons stays others all⟩

/-- What holds of the log files after entries are recorded one after another, told by the results: none of the records
is lost, and each is in the file of its name. -/
structure LogsComplete (database directory : String) (place site : Place) (texts : String → String) (store : Store)
    (work : List (Recorder × HistoryEntry)) (results : List (Except StoreError Int)) (machine after : Machine) :
    Prop where
  answered : results.length = work.length
  /-- Recording only fails once the last identifier is given. -/
  succeeds : ∀ result ∈ results, (∃ id, result = .ok id) ∨
    result = .error (.database "insert history record" .full) ∧
      ∃ last, Keeps database place last after ∧ last.isFull = true
  /-- The identifiers are those that the store gave. -/
  stored : ∃ last, Keeps database place last after ∧
    last.rows = store.rows ++ (recorded work results).map fun entry => .ofEntry entry.id entry
  /-- Every log file is in the directory of the logs. -/
  inside : ∀ entry ∈ recorded work results,
    after.tree.place? after.workingDirectory (Pathname.join directory (logName entry)) = .ok (site ++ [logName entry])
  /-- A log file holds what it held before, and then the lines of the entries of its name in the order of their
  recording. -/
  texts : ∀ entry ∈ recorded work results,
    after.run (Files.readText (Pathname.join directory (logName entry))) =
      (.ok (texts (logName entry) ++ logged (logName entry) (recorded work results)), after)
  /-- No other file changes. -/
  others : ∀ other, other ≠ place → (∀ entry ∈ recorded work results, other ≠ site ++ [logName entry]) →
    after.tree.fileAt? other = machine.tree.fileAt? other
  /-- Each entry has one line, a JSON document. -/
  lines : ∀ name, lines (logged name (recorded work results)).toList =
    ((recorded work results).filter (logName · == name)).map fun entry => entry.toJson.compact.toList
  json : ∀ entry ∈ recorded work results, Json.read? entry.toJson.compact = some entry.toJson
  /-- In all files together there are as many new lines as entries. -/
  total : (((recorded work results).map logName).dedup.map fun name =>
    (Text.lines (logged name (recorded work results)).toList).length).sum = (recorded work results).length

/-- Whatever the URL of an entry is, its log file has one name in the directory of the logs; and however many entries
are recorded, the log files lose none of them. -/
theorem log_files_inside_and_complete :
    (∀ entry : HistoryEntry, (Method.read? entry.method).isSome → NamesLog entry (logName entry)) ∧
      ∀ (database directory : String) (place site : Place) (texts : String → String) (store : Store)
        (machine : Machine) (work : List (Recorder × HistoryEntry)),
        Keeps database place store machine →
        LogsHold directory site (work.map fun job => logName job.2) texts machine →
        (∀ job ∈ work, job.1.Shares database place ∧ job.1.logs = some directory ∧ job.2.Loggable) →
        LogsComplete database directory place site texts store work (machine.run (recordAll work)).1 machine
          (machine.run (recordAll work)).2 := by
  refine ⟨fun entry known => namesLog_logName known, ?_⟩
  intro database directory place site texts store machine work keeps holds joined
  have apart : ∀ name ∈ work.map fun job => logName job.2, site ++ [name] ≠ place := by
    intro name member same
    obtain ⟨job, inside, rfl⟩ := List.mem_map.mp member
    obtain ⟨shares, logs, -⟩ := joined job inside
    exact shares.logs (by rw [logs]; rfl) (logName job.2) (by rw [← same]; simp) (logName_suffix job.2)
  obtain ⟨results, after, last, ran, all⟩ := recordAll_logs keeps holds apart fun job inside =>
    ⟨(joined job inside).1, (joined job inside).2.1, (joined job inside).2.2, List.mem_map_of_mem inside⟩
  rw [ran]
  have known : ∀ entry ∈ recorded work results, entry.Loggable ∧ logName entry ∈ work.map fun job => logName job.2 := by
    intro entry member
    obtain ⟨job, inside, id, rfl⟩ := exists_of_mem_recorded member
    exact ⟨(joined job inside).2.2.withId id, List.mem_map_of_mem inside⟩
  have there {entry : HistoryEntry} (member : entry ∈ recorded work results) : LogsAt directory site after :=
    all.there (.inr (List.ne_nil_of_mem member))
  exact {
    answered := all.answered
    succeeds := fun result member => (all.succeeds result member).imp_right
      fun ⟨refused, full⟩ => ⟨refused, last, all.keeps, full⟩
    stored := ⟨last, all.keeps, all.rows⟩
    inside := fun entry member =>
      place?_join (isEntryName_logName (known entry member).1) (there member).located (there member).held
    texts := by
      intro entry member
      have filled : texts (logName entry) ++ logged (logName entry) (recorded work results) ≠ "" := by
        simpa using fun _ => logged_ne_empty member
      exact (there member).readText (isEntryName_logName (known entry member).1)
        (all.holds.fileAt?_eq (known entry member).2 filled)
    others := all.others
    lines := fun name => lines_logged name _
    json := by
      intro entry member
      have row : Row.ofEntry entry.id entry ∈ last.rows := by
        rw [all.rows]
        exact List.mem_append_right _ (List.mem_map_of_mem member)
      obtain ⟨after, before⟩ : 0 < entry.id ∧ entry.id ≤ last.lastId := all.keeps.1.given _ row
      have limit := all.keeps.1.last.2
      refine read?_toJson ?_ (known entry member).1
      simp only [Json.leastInt, Json.greatestInt, Column.greatest, Nat.pow_eq] at limit ⊢
      omega
    total := sum_length_lines_logged _ }

/-- Two visits in the same millisecond, which share a log file. -/
def visits : List (Recorder × HistoryEntry) :=
  [(clerk, visit), (clerk, { visit with url := "http://localhost?page=2" })]

theorem visits_logged :
    (Method.read? visit.method).isSome ∧ NamesLog visit (logName visit) ∧
      Keeps "history.db" ["history.db"] {} desk ∧
      LogsHold "logs" ["logs"] (visits.map fun job => logName job.2) (fun _ => "") desk ∧
      (∀ job ∈ visits, job.1.Shares "history.db" ["history.db"] ∧ job.1.logs = some "logs" ∧ job.2.Loggable) ∧
      LogsComplete "history.db" "logs" ["history.db"] ["logs"] (fun _ => "") {} visits
        (desk.run (recordAll visits)).1 desk (desk.run (recordAll visits)).2 ∧
      (recorded visits (desk.run (recordAll visits)).1).map (fun entry => (entry.id, logName entry)) =
        [(1, "19700101-000000-000_GET_root.log"), (2, "19700101-000000-000_GET_root.log")] := by
  have known : (Method.read? visit.method).isSome := by decide
  have holds : LogsHold "logs" ["logs"] (visits.map fun job => logName job.2) (fun _ => "") desk := by
    refine ⟨⟨_, rfl, ⟨rfl, rfl, rfl⟩, fun name _ stands => ?_⟩, fun name _ => rfl⟩
    cases stands
  have loggable : visit.Loggable :=
    { method := known
      year := by decide
      nanos := by decide
      status := by
        intro status member
        cases member
        decide
      millis := by decide }
  have joined : ∀ job ∈ visits, job.1.Shares "history.db" ["history.db"] ∧ job.1.logs = some "logs" ∧
      job.2.Loggable := by
    simp only [visits, List.forall_mem_cons]
    exact ⟨⟨clerk_shares, rfl, loggable⟩,
      ⟨clerk_shares, rfl, loggable.method, loggable.year, loggable.nanos, loggable.status, loggable.millis⟩, by simp⟩
  exact ⟨known, log_files_inside_and_complete.1 visit known, desk_keeps, holds, joined,
    log_files_inside_and_complete.2 _ _ _ _ _ _ _ _ desk_keeps holds joined, by decide +kernel⟩

end History
end Runbook

import Runbook.History.Row
import Runbook.History.Store
import Runbook.Proofs.Control
import Runbook.Proofs.Dict
import Runbook.Proofs.Json.Compact
import Runbook.Proofs.Time.Reading

/-!
The history as it is stored. The row of an entry holds that entry, under the identifier of the row and with its
milliseconds held within a column.
-/

namespace Runbook

/-- An entry that a row can hold: its time is dated, its status fits, and its headers are dictionaries. -/
structure HistoryEntry.Storable (entry : HistoryEntry) : Prop where
  timestamp : entry.timestamp.IsDated
  status : ∀ status ∈ entry.status, status < Document.wordBound 16
  requestHeaders : entry.requestHeaders.Sorted
  responseHeaders : entry.responseHeaders.Sorted

/-- An entry as it is read back under an identifier. -/
def HistoryEntry.kept (id : Int) (entry : HistoryEntry) : HistoryEntry :=
  { entry with id, millis := min entry.millis (Nat.pow 2 63 - 1) }

namespace Json

theorem writableFields_mapValues (texts : Dict String) : WritableFields (texts.mapValues string) := by
  induction texts with
  | nil => trivial
  | cons pair rest ih => exact ⟨trivial, ih⟩

theorem depthFields_mapValues (texts : Dict String) : depthFields (texts.mapValues string) = 0 := by
  induction texts with
  | nil => rfl
  | cons pair rest ih =>
    change max 0 (depthFields (Dict.mapValues string rest)) = 0
    rw [ih]
    rfl

/-- A dictionary of texts is read back from its compact text. -/
theorem read?_ofTexts (texts : Dict String) : read? (ofTexts texts).compact = some (ofTexts texts) := by
  refine read?_compact (writableFields_mapValues texts) ?_
  change depthFields (texts.mapValues string) + 1 ≤ depthLimit
  rw [depthFields_mapValues]
  decide

end Json

theorem Document.texts?_ofTexts {texts : Dict String} (sorted : texts.Sorted) :
    Document.texts? (Json.ofTexts texts) = some texts := by
  have each : (texts.mapValues Json.string).mapM (fun field =>
      (Readable.text? field.2).map fun value => (field.1, value)) = some (texts.map id) :=
    mapM_map_eq_some fun pair _ => rfl
  change (Option.map Dict.ofPairs _) = _
  rw [each, List.map_id, Option.map_some, Dict.ofPairs_eq_self sorted]

namespace History.Row

theorem headersOf_ofTexts {headers : Dict String} (sorted : headers.Sorted) :
    headersOf (Json.ofTexts headers).compact = .ok headers := by
  unfold headersOf
  rw [Json.read?_ofTexts, Option.bind_some, Document.texts?_ofTexts sorted]

variable {id : Int} {entry : HistoryEntry}

theorem text?_ofText? {row : Row} {column : Column} {content : Option String}
    (held : row.cell column = .ofText? content) : row.text? column = .ok content := by
  unfold text?
  rw [held]
  cases content <;> rfl

theorem int?_ofEntry_responseStatus :
    (ofEntry id entry).int? .responseStatus = .ok (entry.status.map fun status => (status : Int)) := by
  simp only [int?, ofEntry]
  cases entry.status <;> rfl

/-- Every column of an entry's row holds a value of its kind. -/
theorem checkKinds_ofEntry (id : Int) (entry : HistoryEntry) : (ofEntry id entry).checkKinds = .ok () := by
  refine forM_eq_ok fun column _ => ?_
  cases column with
  | project => cases stored : entry.project <;> simp [ofEntry, text?, stored] <;> rfl
  | requestBody => cases stored : entry.requestBody <;> simp [ofEntry, text?, stored] <;> rfl
  | responseStatus => cases stored : entry.status <;> simp [ofEntry, int?, stored] <;> rfl
  | responseBody => cases stored : entry.responseBody <;> simp [ofEntry, text?, stored] <;> rfl
  | error => cases stored : entry.error <;> simp [ofEntry, text?, stored] <;> rfl
  | _ => rfl

/-- The row of an entry holds that entry. -/
theorem entry_ofEntry (id : Int) (storable : entry.Storable) : (ofEntry id entry).entry = .ok (entry.kept id) := by
  have timestamp : (ofEntry id entry).text .timestamp = .ok (entry.timestamp.withZone "+00:00") := rfl
  have method : (ofEntry id entry).text .method = .ok entry.method := rfl
  have url : (ofEntry id entry).text .url = .ok entry.url := rfl
  have requestHeaders : (ofEntry id entry).text .requestHeaders = .ok (Json.ofTexts entry.requestHeaders).compact := rfl
  have responseHeaders :
      (ofEntry id entry).text .responseHeaders = .ok (Json.ofTexts entry.responseHeaders).compact := rfl
  have project : (ofEntry id entry).text? .project = .ok entry.project := text?_ofText? rfl
  have requestBody : (ofEntry id entry).text? .requestBody = .ok entry.requestBody := text?_ofText? rfl
  have responseBody : (ofEntry id entry).text? .responseBody = .ok entry.responseBody := text?_ofText? rfl
  have error : (ofEntry id entry).text? .error = .ok entry.error := text?_ofText? rfl
  have millis : (ofEntry id entry).int .millis = .ok (min (entry.millis : Int) Column.greatest) := rfl
  have dated := Time.Instant.readStrict?_withZone storable.timestamp
  have limit : (min (entry.millis : Int) Column.greatest).toNat = min entry.millis (Nat.pow 2 63 - 1) := by
    unfold Column.greatest
    omega
  unfold Row.entry
  simp only [timestamp, method, url, requestHeaders, responseHeaders, project, requestBody, responseBody, error,
    millis, int?_ofEntry_responseStatus, bind, Except.bind, dated, headersOf_ofTexts storable.requestHeaders,
    headersOf_ofTexts storable.responseHeaders, limit]
  cases stored : entry.status with
  | none => simp [HistoryEntry.kept, ofEntry, stored, pure, Except.pure]
  | some status =>
    have fits : status < Document.wordBound 16 := storable.status status stored
    simp [HistoryEntry.kept, ofEntry, stored, fits, pure, Except.pure]

end History.Row
end Runbook

/-!
The store as a value that only grows. An entry that is added is read back under its identifier, what was there before is
read as it was, and the text that keeps a store gives the store back.
-/

namespace Runbook.History

/-- A value whose JSON is read back: an integer is one that JSON keeps exactly. -/
def Cell.Writable (cell : Cell) : Prop := (Store.cellJson cell).Writable

namespace Store

/-- A store that it built itself: identifiers grow from row to row and none is above the last one given. -/
structure Sound (store : Store) : Prop where
  ascending : store.rows.Pairwise (·.id < ·.id)
  given : ∀ row ∈ store.rows, 0 < row.id ∧ row.id ≤ store.lastId
  last : 0 ≤ store.lastId ∧ store.lastId ≤ Column.greatest
  cells : ∀ row ∈ store.rows, ∀ column, (row.cell column).Writable

/-- A store that holds what an earlier one held, and behind it rows that the earlier one had no identifiers for. -/
structure Extends (later earlier : Store) : Prop where
  rows : ∃ added, later.rows = earlier.rows ++ added ∧ ∀ row ∈ added, earlier.lastId < row.id
  last : earlier.lastId ≤ later.lastId

/-- The empty store is sound. -/
theorem sound_empty : Sound {} where
  ascending := .nil
  given _ member := by cases member
  last := by decide
  cells _ member := by cases member

namespace Extends

theorem refl (store : Store) : store.Extends store := ⟨⟨[], (List.append_nil _).symm, by simp⟩, Int.le_refl _⟩

theorem trans {first second third : Store} (later : third.Extends second) (earlier : second.Extends first) :
    third.Extends first := by
  obtain ⟨more, grown, above⟩ := later.rows
  obtain ⟨added, held, fresh⟩ := earlier.rows
  refine ⟨⟨added ++ more, by rw [grown, held, List.append_assoc], fun row member => ?_⟩, Int.le_trans earlier.last later.last⟩
  rcases List.mem_append.mp member with first | second
  · exact fresh row first
  · exact Int.lt_of_le_of_lt earlier.last (above row second)

end Extends

variable {store : Store} {entry : HistoryEntry}

theorem extends_record (store : Store) (entry : HistoryEntry) : (store.record entry).2.Extends store := by
  refine ⟨⟨[.ofEntry (store.lastId + 1) entry], rfl, fun row member => ?_⟩, ?_⟩
  · obtain rfl := List.mem_singleton.mp member
    exact Int.lt_succ _
  · exact Int.le_add_one (Int.le_refl _)

/-- The row that is added has the new identifier. -/
theorem ids_record (store : Store) (entry : HistoryEntry) :
    (store.record entry).2.rows.map Row.id = store.rows.map Row.id ++ [(store.record entry).1] := List.map_append

/-- Every integer in an entry's row is one that JSON keeps exactly. -/
theorem writable_ofEntry {id : Int} (status : ∀ status ∈ entry.status, status < Document.wordBound 16)
    (column : Column) : ((Row.ofEntry id entry).cell column).Writable := by
  have text? (content : Option String) : (Cell.ofText? content).Writable := by cases content <;> trivial
  cases column with
  | project => exact text? _
  | requestBody => exact text? _
  | responseBody => exact text? _
  | error => exact text? _
  | responseStatus =>
    cases stored : entry.status with
    | none => simp [Row.ofEntry, stored, Cell.Writable, cellJson, Json.Writable]
    | some value =>
      have bound : value < Document.wordBound 16 := status value stored
      simp only [Document.wordBound, Nat.pow_eq] at bound
      simp only [Row.ofEntry, stored]
      change Json.leastInt ≤ (value : Int) ∧ (value : Int) ≤ Json.greatestInt
      simp only [Json.leastInt, Json.greatestInt, Nat.pow_eq]
      omega
  | millis =>
    change Json.leastInt ≤ min (entry.millis : Int) Column.greatest ∧
      min (entry.millis : Int) Column.greatest ≤ Json.greatestInt
    simp only [Json.leastInt, Json.greatestInt, Column.greatest, Nat.pow_eq]
    omega
  | _ => trivial

/-- A store with an identifier left is sound after an entry is added. -/
theorem Sound.record (sound : store.Sound) (room : store.isFull = false)
    (status : ∀ status ∈ entry.status, status < Document.wordBound 16) : (store.record entry).2.Sound := by
  have left : store.lastId < Column.greatest := by simpa [isFull] using room
  obtain ⟨after, before⟩ := sound.last
  refine ⟨?_, fun row member => ?_, ⟨?_, left⟩, fun row member => ?_⟩
  · refine List.pairwise_append.mpr ⟨sound.ascending, List.pairwise_singleton _ _, fun row held new fresh => ?_⟩
    obtain rfl := List.mem_singleton.mp fresh
    exact Int.lt_add_one_of_le (sound.given row held).2
  · rcases List.mem_append.mp member with held | fresh
    · exact ⟨(sound.given row held).1, Int.le_add_one (sound.given row held).2⟩
    · obtain rfl := List.mem_singleton.mp fresh
      exact ⟨Int.lt_add_one_of_le after, Int.le_refl _⟩
  · exact Int.le_add_one after
  · rcases List.mem_append.mp member with held | fresh
    · exact sound.cells row held
    · obtain rfl := List.mem_singleton.mp fresh
      exact writable_ofEntry status

/-- An entry that is added is read back under its identifier. -/
theorem get_record (sound : store.Sound) (storable : entry.Storable) :
    (store.record entry).2.get (store.record entry).1 = .ok (entry.kept (store.record entry).1) := by
  have none : store.rows.find? (fun row => row.id == store.lastId + 1) = none := by
    refine List.find?_eq_none.mpr fun row member same => ?_
    have below := (sound.given row member).2
    rw [beq_iff_eq] at same
    omega
  have found : (store.record entry).2.rows.find? (fun row => row.id == store.lastId + 1) =
      some (.ofEntry (store.lastId + 1) entry) := by
    rw [record, List.find?_append, none, Option.none_or]
    exact List.find?_cons_of_pos (by simp [Row.ofEntry])
  unfold get
  rw [show (store.record entry).1 = store.lastId + 1 from rfl, found]
  simp only [Row.checkKinds_ofEntry, Row.entry_ofEntry _ storable]
  rfl

/-- What a store holds is read alike from every store that extends it. -/
theorem Extends.get_eq {later earlier : Store} (extended : later.Extends earlier) {id : Int}
    (held : id ∈ earlier.rows.map Row.id) : later.get id = earlier.get id := by
  obtain ⟨added, grown, -⟩ := extended.rows
  obtain ⟨row, member, same⟩ := List.mem_map.mp held
  obtain ⟨first, found⟩ := Option.isSome_iff_exists.mp
    (List.find?_isSome.mpr ⟨row, member, beq_iff_eq.mpr same⟩ : (earlier.rows.find? (·.id == id)).isSome)
  unfold get
  rw [grown, List.find?_append, found, Option.some_or]

/-- There is no entry under an identifier that no row has. -/
theorem get_eq_notFound {id : Int} (missing : id ∉ store.rows.map Row.id) : store.get id = .error (.notFound id) := by
  have none : store.rows.find? (·.id == id) = none := by
    refine List.find?_eq_none.mpr fun row member same => missing ?_
    exact List.mem_map.mpr ⟨row, member, beq_iff_eq.mp same⟩
  rw [get, none]

/-! The text of a store -/

theorem cellOf?_cellJson (cell : Cell) : cellOf? (cellJson cell) = some cell := by cases cell <;> rfl

/-- A row is read back from its JSON. -/
theorem rowOf?_rowJson (row : Row) : rowOf? (rowJson row) = some row := by
  have cells : (Column.all.map fun column => cellJson (row.cell column)).mapM cellOf? =
      some (Column.all.map row.cell) :=
    mapM_map_eq_some fun column _ => cellOf?_cellJson (row.cell column)
  have looked (column : Column) : ((Column.all.zip (Column.all.map row.cell)).lookup column).getD .null =
      row.cell column := by
    cases column <;> rfl
  unfold rowJson rowOf?
  simp only [cells, Option.bind_eq_bind, Option.bind_some, List.length_map, if_true, looked]
  rfl

theorem canonical_cellJson (cell : Cell) : (cellJson cell).canonical = cellJson cell := by cases cell <;> rfl

theorem depth_cellJson (cell : Cell) : (cellJson cell).depth = 0 := by cases cell <;> rfl

theorem canonical_rowJson (row : Row) : (rowJson row).canonical = rowJson row := by
  refine congrArg Json.array (Json.canonicalItems_eq_self fun item member => ?_)
  rcases List.mem_cons.mp member with rfl | member
  · rfl
  · obtain ⟨column, -, rfl⟩ := List.mem_map.mp member
    exact canonical_cellJson _

theorem depth_rowJson (row : Row) : (rowJson row).depth = 1 := by
  have flat : Json.depthItems (.int row.id :: Column.all.map fun column => cellJson (row.cell column)) ≤ 0 := by
    refine Json.depthItems_le_iff.mpr fun item member => ?_
    rcases List.mem_cons.mp member with rfl | member
    · exact Nat.le_refl 0
    · obtain ⟨column, -, rfl⟩ := List.mem_map.mp member
      exact Nat.le_of_eq (depth_cellJson _)
  exact congrArg (· + 1) (Nat.le_zero.mp flat)

theorem writable_rowJson {row : Row} (id : Json.leastInt ≤ row.id ∧ row.id ≤ Json.greatestInt)
    (cells : ∀ column, (row.cell column).Writable) : (rowJson row).Writable := by
  refine Json.writableItems_iff.mpr fun item member => ?_
  rcases List.mem_cons.mp member with rfl | member
  · exact id
  · obtain ⟨column, -, rfl⟩ := List.mem_map.mp member
    exact cells column

/-- A text that a value stands in with a blank behind it is not empty. -/
theorem isEmpty_append_blank (text : String) : (text ++ "\n").isEmpty = false := by
  rw [String.isEmpty_eq_false_iff]
  intro empty
  simpa using congrArg String.length empty

/-- The document of a store, whose compact text keeps the store. -/
def document (store : Store) : Json :=
  .object [("last_id", .int store.lastId), ("rows", .array (store.rows.map rowJson))]

theorem writable_document (sound : store.Sound) : store.document.Writable := by
  have bound {id : Int} (above : 0 ≤ id) (below : id ≤ store.lastId) : Json.leastInt ≤ id ∧ id ≤ Json.greatestInt := by
    have last := sound.last.2
    simp only [Json.leastInt, Json.greatestInt, Column.greatest, Nat.pow_eq] at last ⊢
    omega
  refine ⟨bound sound.last.1 (Int.le_refl _), Json.writableItems_iff.mpr fun item member => ?_, trivial⟩
  obtain ⟨row, held, rfl⟩ := List.mem_map.mp member
  obtain ⟨above, below⟩ := sound.given row held
  exact writable_rowJson (bound (Int.le_of_lt above) below) (sound.cells row held)

theorem depth_document (store : Store) : store.document.depth ≤ Json.depthLimit := by
  have rows : Json.depthItems (store.rows.map rowJson) ≤ 1 := by
    refine Json.depthItems_le_iff.mpr fun item member => ?_
    obtain ⟨row, -, rfl⟩ := List.mem_map.mp member
    exact Nat.le_of_eq (depth_rowJson row)
  simp only [document, Json.depth, Json.depthFields, Json.depthLimit]
  omega

theorem canonical_document (store : Store) : store.document.canonical = store.document := by
  have rows : Json.canonicalItems (store.rows.map rowJson) = store.rows.map rowJson := by
    refine Json.canonicalItems_eq_self fun item member => ?_
    obtain ⟨row, -, rfl⟩ := List.mem_map.mp member
    exact canonical_rowJson row
  simp only [document, Json.canonical, Json.canonicalFields, rows]
  rfl

/-- The text that keeps a store gives the store back. -/
theorem read?_text (sound : store.Sound) : Store.read? store.text = some store := by
  have filled : store.text.isEmpty = false := isEmpty_append_blank _
  have parsed : Json.parse? store.text = some store.document := by
    have blank : ∀ c ∈ "\n".toList, Json.isSpace c = true := by
      intro c member
      obtain rfl : c = '\n' := List.mem_singleton.mp member
      rfl
    have read : Json.read? store.text = some store.document :=
      Json.read?_compact_append (writable_document sound) (depth_document store) blank
    rw [Json.parse?, read, Option.map_some, canonical_document]
  have rows : (store.rows.map rowJson).mapM rowOf? = some store.rows := by
    rw [mapM_map_eq_some fun row _ => rowOf?_rowJson row, List.map_id']
  unfold read?
  rw [filled, parsed]
  change (List.mapM rowOf? (store.rows.map rowJson)).bind _ = _
  rw [rows]
  rfl

end Store
end Runbook.History

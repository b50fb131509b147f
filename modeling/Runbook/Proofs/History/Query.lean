import Mathlib.Data.List.Infix
import Runbook.Proofs.History.AppendOnly

/-!
Queries of the history. Entries recorded into an empty store stand under one, two and so on, and a query is answered by
the last of those that its filter accepts.
-/

namespace Runbook

/-- A text holds another one just when the other one is part of it. -/
theorem Text.holds_iff {part text : List Char} : Text.holds part text = true ↔ part <:+: text := by
  induction text with
  | nil => rw [Text.holds, List.isEmpty_iff, List.infix_nil]
  | cons c rest ih => rw [Text.holds, Bool.or_eq_true, List.isPrefixOf_iff_prefix, ih, List.infix_cons_iff]

namespace History

open Machine Text

variable {database : String} {place : Place} {store : Store} {machine : Machine} {entry : HistoryEntry} {id : Int}

/-- An entry that a filter asks for; a condition that is not given does not matter. -/
structure Filter.Accepts (filter : Filter) (entry : HistoryEntry) : Prop where
  project : ∀ project ∈ filter.project, entry.project = some project
  method : ∀ method ∈ filter.method, entry.method = upper method
  url : ∀ part ∈ filter.urlPart, part.toList <:+: entry.url.toList

instance (filter : Filter) (entry : HistoryEntry) : Decidable (filter.Accepts entry) :=
  decidable_of_iff ((∀ project ∈ filter.project, entry.project = some project) ∧
      (∀ method ∈ filter.method, entry.method = upper method) ∧
      ∀ part ∈ filter.urlPart, part.toList <:+: entry.url.toList)
    ⟨fun ⟨project, method, url⟩ => ⟨project, method, url⟩,
      fun accepts => ⟨accepts.project, accepts.method, accepts.url⟩⟩

/-- The row of an entry is let through just when the entry is accepted. -/
theorem Filter.admits_ofEntry (filter : Filter) :
    filter.admits (.ofEntry id entry) = true ↔ filter.Accepts (entry.kept id) := by
  have project (wanted : String) :
      (Cell.ofText? entry.project == .text wanted) = true ↔ entry.project = some wanted := by
    rw [beq_iff_eq]
    cases entry.project <;> simp [Cell.ofText?]
  have method (wanted : String) :
      (Cell.text entry.method == .text (upper wanted)) = true ↔ entry.method = upper wanted := by
    rw [beq_iff_eq, Cell.text.injEq]
  unfold admits
  simp only [Row.ofEntry, Bool.and_eq_true, Option.all_eq_true, project, method, holds_iff, and_assoc]
  constructor
  · rintro ⟨ofProject, ofMethod, ofUrl⟩
    exact ⟨ofProject, ofMethod, ofUrl⟩
  · intro accepts
    exact ⟨accepts.project, accepts.method, accepts.url⟩

/-- Entries with the numbers that they stand under, from one on. -/
def numbered (entries : List HistoryEntry) : List (HistoryEntry × Nat) := entries.zipIdx 1

/-- A store that holds the rows of some entries and nothing else. -/
structure Store.Holds (store : Store) (entries : List HistoryEntry) : Prop where
  rows : store.rows = (numbered entries).map fun pair => .ofEntry pair.2 pair.1
  last : store.lastId = entries.length

theorem numbered_append_singleton (entries : List HistoryEntry) (entry : HistoryEntry) :
    numbered (entries ++ [entry]) = numbered entries ++ [(entry, entries.length + 1)] := by
  rw [numbered, List.zipIdx_append, List.zipIdx_singleton, Nat.add_comm]
  rfl

namespace Store.Holds

variable {entries : List HistoryEntry}

theorem empty : Holds {} [] := ⟨rfl, rfl⟩

/-- An entry that is recorded joins those that the store holds. -/
theorem record (holds : store.Holds entries) (entry : HistoryEntry) :
    (store.record entry).2.Holds (entries ++ [entry]) := by
  constructor
  · rw [numbered_append_singleton, List.map_append, ← holds.rows]
    simp only [Store.record, holds.last]
    rfl
  · simp only [Store.record, holds.last, List.length_append, List.length_singleton]
    rfl

/-- A query of entries that can be read is answered by those that its filter accepts, newest first. -/
theorem query_eq (holds : store.Holds entries) (storable : ∀ entry ∈ entries, entry.Storable) (filter : Filter) :
    store.query filter = .ok ((((numbered entries).map fun pair => pair.1.kept pair.2).reverse.filter
      (filter.Accepts ·)).take filter.limit) := by
  let chosen := ((numbered entries).reverse.filter fun pair => filter.Accepts (pair.1.kept pair.2)).take filter.limit
  have selected : store.select filter = chosen.map fun pair => Row.ofEntry pair.2 pair.1 := by
    have admits : (filter.admits ∘ fun pair : HistoryEntry × Nat => Row.ofEntry pair.2 pair.1) =
        fun pair => decide (filter.Accepts (pair.1.kept pair.2)) := by
      funext pair
      exact Bool.eq_iff_iff.mpr (filter.admits_ofEntry.trans decide_eq_true_iff.symm)
    rw [select, holds.rows, ← List.map_reverse, List.filter_map, admits, ← List.map_take]
  have checked : (store.select filter).forM
      (fun row => row.checkKinds.mapError (RowFault.error "query history" row.id)) = .ok () := by
    apply forM_eq_ok
    intro row member
    rw [selected] at member
    obtain ⟨pair, -, rfl⟩ := List.mem_map.mp member
    rw [Row.checkKinds_ofEntry]
    rfl
  have read : (store.select filter).mapM
      (fun row => row.entry.mapError (RowFault.error "query history" row.id)) =
        .ok (chosen.map fun pair => pair.1.kept pair.2) := by
    rw [selected]
    apply mapM_map_eq_pure
    intro pair member
    have inside : pair ∈ numbered entries :=
      List.mem_reverse.mp (List.mem_filter.mp (List.mem_of_mem_take member)).1
    rw [Row.entry_ofEntry _ (storable pair.1 (List.fst_mem_of_mem_zipIdx inside))]
    rfl
  unfold query
  dsimp only
  rw [checked, read, ← List.map_reverse, List.filter_map, ← List.map_take]
  rfl

end Store.Holds

/-- Entries recorded one after another, each by its recorder. -/
def recordAll (work : List (Recorder × HistoryEntry)) : StateM Machine (List (Except StoreError Int)) :=
  work.mapM fun job => job.1.record job.2

theorem recordAll_cons {job : Recorder × HistoryEntry} {result : Except StoreError Int} {middle : Machine}
    (ran : machine.run (job.1.record job.2) = (result, middle)) (work : List (Recorder × HistoryEntry)) :
    machine.run (recordAll (job :: work)) =
      (result :: (middle.run (recordAll work)).1, (middle.run (recordAll work)).2) := by
  unfold recordAll
  rw [List.mapM_cons, run_bind ran]
  rfl

/-- An order that was sent for a project. -/
def order : HistoryEntry :=
  { visit with project := some "shop", method := "POST", url := "http://localhost/orders?page=2" }

end History
end Runbook

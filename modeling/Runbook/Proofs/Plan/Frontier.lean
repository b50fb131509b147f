import Runbook.Proofs.Plan.Greedy

/-!
The loop that places the steps of a graph. Between two placements the counters say how many sources of a step are not
placed, and the ready list holds exactly the steps that could be placed, sorted by rank. So each placement takes the
first of them, no counter is taken below zero, and the loop ends when nothing is left that could be placed.
-/

namespace Runbook.Plan

/-- The list is in the order of choice. -/
def RankSorted (ranks : List Rank) : Prop := ranks.Pairwise fun first second => first.before second = true

theorem insertRank_perm (rank : Rank) (ranks : List Rank) : (insertRank rank ranks).Perm (rank :: ranks) := by
  induction ranks with
  | nil => exact .refl _
  | cons other rest ih =>
    unfold insertRank
    split
    · exact .refl _
    · exact (ih.cons other).trans (.swap rank other rest)

theorem RankSorted.insertRank {ranks : List Rank} (sorted : RankSorted ranks) (rank : Rank) :
    RankSorted (insertRank rank ranks) := by
  induction ranks with
  | nil => exact List.pairwise_singleton _ _
  | cons other rest ih =>
    obtain ⟨first, tail⟩ := List.pairwise_cons.mp sorted
    unfold Plan.insertRank
    split
    · next earlier =>
      apply List.pairwise_cons.mpr ⟨_, sorted⟩
      intro entry member
      rcases List.mem_cons.mp member with rfl | later
      · exact earlier
      · exact Rank.before_trans earlier (first entry later)
    · next later =>
      have after := (Rank.before_total rank other).resolve_left later
      apply List.pairwise_cons.mpr ⟨_, ih tail⟩
      intro entry member
      rcases List.mem_cons.mp ((insertRank_perm rank rest).mem_iff.mp member) with rfl | inside
      · exact after
      · exact first entry inside

/-- The dependencies of a step that are not placed. -/
def missing (dependencies : List (List Nat)) (placed : List Nat) (index : Nat) : List Nat :=
  (dependencies.getD index []).filter (· ∉ placed)

/-- A step is among the dependencies of another one. -/
def Needs (dependencies : List (List Nat)) (source target : Nat) : Prop := source ∈ dependencies.getD target []

variable {steps : List Step} {dependencies : List (List Nat)}

theorem missing_eq_nil_iff {placed : List Nat} {index : Nat} :
    missing dependencies placed index = [] ↔ ∀ source, Needs dependencies source index → source ∈ placed := by
  simp [missing, Needs]

theorem mem_missing {placed : List Nat} {source index : Nat} :
    source ∈ missing dependencies placed index ↔ Needs dependencies source index ∧ source ∉ placed := by
  simp [missing, Needs]

theorem free_iff_missing {count : Nat} {placed : List Nat} {index : Nat} :
    Free (Needs dependencies) count placed index ↔
      index < count ∧ index ∉ placed ∧ missing dependencies placed index = [] := by
  rw [Free, missing_eq_nil_iff]

theorem missing_append (once : ∀ target, (dependencies.getD target []).Nodup) (placed : List Nat) (added index : Nat) :
    missing dependencies (placed ++ [added]) index = (missing dependencies placed index).erase added := by
  have nodup : (missing dependencies placed index).Nodup := (once index).filter _
  rw [nodup.erase_eq_filter]
  simp only [missing, List.filter_filter]
  apply List.filter_congr
  intro source _
  by_cases same : source = added
  · simp [same]
  · simp [same]

theorem mem_dependentsOf {source target : Nat} :
    target ∈ dependentsOf dependencies source ↔ target < dependencies.length ∧ Needs dependencies source target := by
  simp [dependentsOf, Needs]

theorem nodup_dependentsOf (source : Nat) : (dependentsOf dependencies source).Nodup :=
  List.nodup_range.filter _

namespace Frontier

/-- The planning with a step moved from the ready list to the order, before its dependents are released. -/
def take (frontier : Frontier) (index : Nat) (rest : List Rank) : Frontier :=
  { frontier with ready := rest, order := frontier.order ++ [index] }

/-- One dependent after another waits for one step fewer. -/
def releaseAll (steps : List Step) (dependents : List Nat) (frontier : Frontier) : Frontier :=
  dependents.foldl (release steps) frontier

theorem place_cons (frontier : Frontier) {first : Rank} {rest : List Rank} (ready : frontier.ready = first :: rest) :
    frontier.place steps dependencies =
      some (releaseAll steps (dependentsOf dependencies first.2) (frontier.take first.2 rest)) := by
  simp [place, ready, releaseAll, take]

theorem place_eq_none_iff (frontier : Frontier) : frontier.place steps dependencies = none ↔ frontier.ready = [] := by
  unfold place
  split <;> simp_all

@[simp] theorem releaseAll_order (dependents : List Nat) (frontier : Frontier) :
    (releaseAll steps dependents frontier).order = frontier.order := by
  induction dependents generalizing frontier with
  | nil => rfl
  | cons dependent rest ih => exact ih (release steps frontier dependent)

@[simp] theorem releaseAll_waiting_length (dependents : List Nat) (frontier : Frontier) :
    (releaseAll steps dependents frontier).waiting.length = frontier.waiting.length := by
  induction dependents generalizing frontier with
  | nil => rfl
  | cons dependent rest ih => exact (ih (release steps frontier dependent)).trans List.length_set

theorem release_ready (frontier : Frontier) (dependent : Nat) :
    (release steps frontier dependent).ready =
      if frontier.waiting.getD dependent 0 - 1 = 0 then insertRank (rank steps dependent) frontier.ready
      else frontier.ready := rfl

theorem release_waiting_self (frontier : Frontier) {dependent : Nat} (inside : dependent < frontier.waiting.length) :
    (release steps frontier dependent).waiting.getD dependent 0 = frontier.waiting.getD dependent 0 - 1 := by
  simp [release, List.getD_eq_getElem?_getD, inside]

theorem release_waiting_ne (frontier : Frontier) {dependent other : Nat} (different : other ≠ dependent) :
    (release steps frontier dependent).waiting.getD other 0 = frontier.waiting.getD other 0 := by
  simp [release, List.getD_eq_getElem?_getD, List.getElem?_set_ne different.symm]

/-- A release does not touch the counters of other steps. -/
theorem releaseAll_waiting_of_notMem {dependents : List Nat} (frontier : Frontier) {other : Nat}
    (absent : other ∉ dependents) :
    (releaseAll steps dependents frontier).waiting.getD other 0 = frontier.waiting.getD other 0 := by
  induction dependents generalizing frontier with
  | nil => rfl
  | cons dependent rest ih =>
    obtain ⟨different, absent⟩ := not_or.mp (List.mem_cons.not.mp absent)
    exact (ih (release steps frontier dependent) absent).trans (release_waiting_ne frontier different)

/-- A step that is released once waits for one step fewer. -/
theorem releaseAll_waiting_of_mem {dependents : List Nat} (nodup : dependents.Nodup) (frontier : Frontier)
    {dependent : Nat} (member : dependent ∈ dependents) (inside : dependent < frontier.waiting.length) :
    (releaseAll steps dependents frontier).waiting.getD dependent 0 = frontier.waiting.getD dependent 0 - 1 := by
  induction dependents generalizing frontier with
  | nil => cases member
  | cons first rest ih =>
    obtain ⟨absent, nodup⟩ := List.nodup_cons.mp nodup
    change (releaseAll steps rest (release steps frontier first)).waiting.getD dependent 0 = _
    rcases List.mem_cons.mp member with rfl | later
    · rw [releaseAll_waiting_of_notMem _ absent, release_waiting_self frontier inside]
    · have different : dependent ≠ first := fun same => absent (same ▸ later)
      rw [ih nodup _ later (by simpa [release] using inside), release_waiting_ne frontier different]

theorem releaseAll_ready_sorted (dependents : List Nat) (frontier : Frontier) (sorted : RankSorted frontier.ready) :
    RankSorted (releaseAll steps dependents frontier).ready := by
  induction dependents generalizing frontier with
  | nil => exact sorted
  | cons dependent rest ih =>
    apply ih
    rw [release_ready]
    split
    · exact sorted.insertRank _
    · exact sorted

/-- The releases add the steps that then wait for nothing to the ready list. -/
theorem releaseAll_ready_perm {dependents : List Nat} (nodup : dependents.Nodup) (frontier : Frontier) :
    (releaseAll steps dependents frontier).ready.Perm
      ((dependents.filter fun dependent => frontier.waiting.getD dependent 0 - 1 = 0).map (rank steps) ++
        frontier.ready) := by
  induction dependents generalizing frontier with
  | nil => exact .refl _
  | cons first rest ih =>
    obtain ⟨absent, nodup⟩ := List.nodup_cons.mp nodup
    have untouched : (rest.filter fun dependent => (release steps frontier first).waiting.getD dependent 0 - 1 = 0) =
        rest.filter fun dependent => frontier.waiting.getD dependent 0 - 1 = 0 := by
      apply List.filter_congr
      intro dependent later
      have different : dependent ≠ first := fun same => absent (same ▸ later)
      rw [release_waiting_ne frontier different]
    have further := ih nodup (release steps frontier first)
    rw [untouched, release_ready] at further
    apply further.trans
    by_cases last : frontier.waiting.getD first 0 - 1 = 0
    · rw [if_pos last, List.filter_cons_of_pos (by simpa using last), List.map_cons, List.cons_append]
      exact ((insertRank_perm (rank steps first) frontier.ready).append_left _).trans List.perm_middle
    · rw [if_neg last, List.filter_cons_of_neg (by simpa using last)]

/-- What holds between two placements. -/
structure Consistent (steps : List Step) (dependencies : List (List Nat)) (frontier : Frontier) : Prop where
  waiting_length : frontier.waiting.length = dependencies.length
  waiting_eq : ∀ index < dependencies.length,
    frontier.waiting.getD index 0 = (missing dependencies frontier.order index).length
  ready_sorted : RankSorted frontier.ready
  ready_nodup : frontier.ready.Nodup
  mem_ready : ∀ entry, entry ∈ frontier.ready ↔
    ∃ index, Free (Needs dependencies) dependencies.length frontier.order index ∧ rank steps index = entry
  greedy : Greedy steps (Needs dependencies) dependencies.length frontier.order

theorem start_ready_perm :
    (start steps dependencies).ready.Perm
      (((List.range dependencies.length).filter fun index => (dependencies.map List.length).getD index 0 == 0).map
        (rank steps)) := by
  have inserted (indices : List Nat) (ready : List Rank) :
      (indices.foldl (fun ready index => insertRank (rank steps index) ready) ready).Perm
        (indices.map (rank steps) ++ ready) := by
    induction indices generalizing ready with
    | nil => exact .refl _
    | cons index rest ih =>
      exact ((ih _).trans ((insertRank_perm (rank steps index) ready).append_left _)).trans List.perm_middle
  simpa [start] using inserted _ []

theorem start_ready_sorted : RankSorted (start steps dependencies).ready := by
  have inserted (indices : List Nat) (ready : List Rank) (sorted : RankSorted ready) :
      RankSorted (indices.foldl (fun ready index => insertRank (rank steps index) ready) ready) := by
    induction indices generalizing ready with
    | nil => exact sorted
    | cons index rest ih => exact ih _ (sorted.insertRank _)
  exact inserted _ [] List.Pairwise.nil

/-- Before the first placement the steps without dependencies are ready. -/
theorem start_consistent (steps : List Step) (dependencies : List (List Nat)) :
    Consistent steps dependencies (start steps dependencies) where
  waiting_length := List.length_map _
  waiting_eq index inside := by
    have nothing : missing dependencies [] index = dependencies.getD index [] := by simp [missing]
    change (dependencies.map List.length).getD index 0 = (missing dependencies [] index).length
    rw [nothing]
    simp [List.getD_eq_getElem?_getD, inside]
  ready_sorted := start_ready_sorted
  ready_nodup := start_ready_perm.nodup_iff.mpr ((List.nodup_range.filter _).map (rank_injective steps))
  mem_ready entry := by
    rw [start_ready_perm.mem_iff, List.mem_map]
    refine exists_congr fun index => and_congr_left fun _ => ?_
    rw [List.mem_filter, List.mem_range, Free]
    refine and_congr_right fun inside => ?_
    simp [start, Needs, List.getD_eq_getElem?_getD, inside, List.eq_nil_iff_forall_not_mem]
  greedy := .nil

/-- The first ready step is free, and no free step comes before it. -/
theorem Consistent.head {frontier : Frontier} (consistent : Consistent steps dependencies frontier) {first : Rank}
    {rest : List Rank} (ready : frontier.ready = first :: rest) :
    Free (Needs dependencies) dependencies.length frontier.order first.2 ∧ rank steps first.2 = first ∧
      ∀ other, Free (Needs dependencies) dependencies.length frontier.order other →
        first.before (rank steps other) = true := by
  obtain ⟨index, free, rfl⟩ := (consistent.mem_ready first).mp (ready ▸ List.mem_cons_self)
  refine ⟨free, rfl, fun other freeToo => ?_⟩
  have member := (consistent.mem_ready _).mpr ⟨other, freeToo, rfl⟩
  rw [ready] at member
  rcases List.mem_cons.mp member with same | later
  · rw [same]
    exact (Rank.before_total _ _).elim id id
  · have sorted := consistent.ready_sorted
    rw [ready] at sorted
    exact (List.pairwise_cons.mp sorted).1 _ later

/-- A dependent of a free step is neither placed nor free: it waits for that step. -/
theorem Consistent.mem_missing_of_dependent {frontier : Frontier}
    (consistent : Consistent steps dependencies frontier) {index dependent : Nat}
    (free : Free (Needs dependencies) dependencies.length frontier.order index)
    (member : dependent ∈ dependentsOf dependencies index) :
    index ∈ missing dependencies frontier.order dependent ∧ dependent ∉ frontier.order ++ [index] := by
  have needed := (mem_dependentsOf.mp member).2
  refine ⟨mem_missing.mpr ⟨needed, free.2.1⟩, fun placed => ?_⟩
  rcases List.mem_append.mp placed with before | now
  · exact free.2.1 (consistent.greedy.source_mem before needed)
  · obtain rfl := List.mem_singleton.mp now
    exact free.2.1 (free.2.2 _ needed)

/-- After a placement a step is free if it waited for the placed step alone, or if it was free before. -/
theorem Consistent.free_append_iff {frontier : Frontier} (consistent : Consistent steps dependencies frontier)
    (once : ∀ target, (dependencies.getD target []).Nodup) {index : Nat}
    (free : Free (Needs dependencies) dependencies.length frontier.order index) (other : Nat) :
    Free (Needs dependencies) dependencies.length (frontier.order ++ [index]) other ↔
      other ∈ dependentsOf dependencies index ∧ (missing dependencies frontier.order other).length - 1 = 0 ∨
        Free (Needs dependencies) dependencies.length frontier.order other ∧ other ≠ index := by
  simp only [free_iff_missing, missing_append once]
  by_cases dependent : other ∈ dependentsOf dependencies index
  · obtain ⟨waits, unplaced⟩ := consistent.mem_missing_of_dependent free dependent
    have inside := (mem_dependentsOf.mp dependent).1
    simp only [dependent, inside, unplaced, List.ne_nil_of_mem waits, not_false_eq_true, true_and, and_false,
      false_and, or_false]
    rw [← List.length_eq_zero_iff, List.length_erase_of_mem waits]
  · have untouched (inside : other < dependencies.length) :
        (missing dependencies frontier.order other).erase index = missing dependencies frontier.order other :=
      List.erase_of_not_mem fun waits => dependent (mem_dependentsOf.mpr ⟨inside, (mem_missing.mp waits).1⟩)
    simp only [dependent, false_and, false_or, List.mem_append, List.mem_singleton, not_or]
    constructor
    · rintro ⟨inside, ⟨unplaced, different⟩, nothing⟩
      exact ⟨⟨inside, unplaced, untouched inside ▸ nothing⟩, different⟩
    · rintro ⟨⟨inside, unplaced, nothing⟩, different⟩
      exact ⟨inside, ⟨unplaced, different⟩, (untouched inside).trans nothing⟩

/-- The ready steps after the first are the free steps other than the first. -/
theorem Consistent.mem_rest {frontier : Frontier} (consistent : Consistent steps dependencies frontier) {index : Nat}
    {rest : List Rank} (ready : frontier.ready = rank steps index :: rest) (entry : Rank) :
    entry ∈ rest ↔ ∃ other, (Free (Needs dependencies) dependencies.length frontier.order other ∧ other ≠ index) ∧
      rank steps other = entry := by
  have nodup := consistent.ready_nodup
  rw [ready] at nodup
  constructor
  · intro member
    obtain ⟨other, free, rfl⟩ := (consistent.mem_ready entry).mp (ready ▸ List.mem_cons_of_mem _ member)
    exact ⟨other, ⟨free, fun same => (List.nodup_cons.mp nodup).1 (same ▸ member)⟩, rfl⟩
  · rintro ⟨other, ⟨free, different⟩, rfl⟩
    have member := (consistent.mem_ready _).mpr ⟨other, free, rfl⟩
    rw [ready] at member
    exact (List.mem_cons.mp member).resolve_left fun same => different (rank_injective steps same)

/-- After a placement the counters again say how many sources are not placed. -/
theorem Consistent.waiting_place {frontier : Frontier} (consistent : Consistent steps dependencies frontier)
    (once : ∀ target, (dependencies.getD target []).Nodup) {index : Nat}
    (free : Free (Needs dependencies) dependencies.length frontier.order index) (rest : List Rank) {other : Nat}
    (inside : other < dependencies.length) :
    (releaseAll steps (dependentsOf dependencies index) (frontier.take index rest)).waiting.getD other 0 =
      (missing dependencies (frontier.order ++ [index]) other).length := by
  rw [missing_append once]
  by_cases dependent : other ∈ dependentsOf dependencies index
  · have counted : other < (frontier.take index rest).waiting.length := consistent.waiting_length.symm ▸ inside
    rw [releaseAll_waiting_of_mem (nodup_dependentsOf index) _ dependent counted,
      List.length_erase_of_mem (consistent.mem_missing_of_dependent free dependent).1,
      ← consistent.waiting_eq other inside]
    rfl
  · have absent : index ∉ missing dependencies frontier.order other :=
      fun waits => dependent (mem_dependentsOf.mpr ⟨inside, (mem_missing.mp waits).1⟩)
    rw [releaseAll_waiting_of_notMem _ dependent, List.erase_of_not_mem absent, ← consistent.waiting_eq other inside]
    rfl

/-- After a placement the ready list gains the dependents that waited for the placed step alone. -/
theorem Consistent.ready_place {frontier : Frontier} (consistent : Consistent steps dependencies frontier)
    (index : Nat) (rest : List Rank) :
    (releaseAll steps (dependentsOf dependencies index) (frontier.take index rest)).ready.Perm
      (((dependentsOf dependencies index).filter fun other =>
        (missing dependencies frontier.order other).length - 1 = 0).map (rank steps) ++ rest) := by
  have counted : ((dependentsOf dependencies index).filter fun other =>
        (frontier.take index rest).waiting.getD other 0 - 1 = 0) =
      (dependentsOf dependencies index).filter fun other =>
        (missing dependencies frontier.order other).length - 1 = 0 := by
    apply List.filter_congr
    intro other member
    rw [← consistent.waiting_eq other (mem_dependentsOf.mp member).1]
    rfl
  rw [← counted]
  exact releaseAll_ready_perm (nodup_dependentsOf index) _

/-- A placement keeps the loop consistent and places one step. -/
theorem Consistent.place {frontier : Frontier} (consistent : Consistent steps dependencies frontier)
    (once : ∀ target, (dependencies.getD target []).Nodup) {first : Rank} {rest : List Rank}
    (ready : frontier.ready = first :: rest) :
    Consistent steps dependencies
      (releaseAll steps (dependentsOf dependencies first.2) (frontier.take first.2 rest)) := by
  obtain ⟨free, ranked, least⟩ := consistent.head ready
  generalize first.2 = index at free ranked ⊢
  subst ranked
  have sorted := consistent.ready_sorted
  have nodup := consistent.ready_nodup
  rw [ready] at sorted nodup
  have gained := consistent.ready_place index rest
  have mem_gained (other : Nat) : rank steps other ∈ ((dependentsOf dependencies index).filter fun other =>
      (missing dependencies frontier.order other).length - 1 = 0).map (rank steps) ↔
      other ∈ dependentsOf dependencies index ∧ (missing dependencies frontier.order other).length - 1 = 0 := by
    rw [List.mem_map_of_injective (rank_injective steps), List.mem_filter, decide_eq_true_iff]
  refine ⟨?_, ?_, ?_, ?_, ?_, ?_⟩
  · exact (releaseAll_waiting_length _ _).trans consistent.waiting_length
  · intro other inside
    rw [releaseAll_order]
    exact consistent.waiting_place once free rest inside
  · exact releaseAll_ready_sorted _ _ (List.pairwise_cons.mp sorted).2
  · refine gained.nodup_iff.mpr (List.nodup_append'.mpr ⟨?_, (List.nodup_cons.mp nodup).2, ?_⟩)
    · exact ((nodup_dependentsOf index).filter _).map (rank_injective steps)
    · intro entry new old
      obtain ⟨other, ⟨freeToo, _⟩, rfl⟩ := (consistent.mem_rest ready entry).mp old
      obtain ⟨needed, unplaced⟩ := mem_missing.mp
        (consistent.mem_missing_of_dependent free ((mem_gained other).mp new).1).1
      exact unplaced (freeToo.2.2 index needed)
  · intro entry
    rw [releaseAll_order, gained.mem_iff, List.mem_append, consistent.mem_rest ready]
    change _ ↔ ∃ other, Free (Needs dependencies) dependencies.length (frontier.order ++ [index]) other ∧ _
    simp only [consistent.free_append_iff once free, or_and_right, exists_or]
    refine or_congr ?_ Iff.rfl
    simp [and_assoc]
  · rw [releaseAll_order]
    exact consistent.greedy.append free least

/-- Whenever a placement releases a step, that step still waits for one. -/
def CountsDown (steps : List Step) (dependencies : List (List Nat)) (frontier : Frontier) : Prop :=
  ∀ first rest, frontier.ready = first :: rest → ∀ front dependent back,
    dependentsOf dependencies first.2 = front ++ dependent :: back →
      0 < (releaseAll steps front (frontier.take first.2 rest)).waiting.getD dependent 0

/-- No counter is taken below zero. -/
theorem Consistent.countsDown {frontier : Frontier} (consistent : Consistent steps dependencies frontier) :
    CountsDown steps dependencies frontier := by
  intro first rest ready front dependent back split
  have member : dependent ∈ dependentsOf dependencies first.2 := by simp [split]
  have absent : dependent ∉ front := by
    have nodup : (dependentsOf dependencies first.2).Nodup := nodup_dependentsOf first.2
    rw [split] at nodup
    exact fun early => (List.nodup_append'.mp nodup).2.2 early List.mem_cons_self
  rw [releaseAll_waiting_of_notMem _ absent]
  change 0 < frontier.waiting.getD dependent 0
  rw [consistent.waiting_eq dependent (mem_dependentsOf.mp member).1]
  exact List.length_pos_of_mem (consistent.mem_missing_of_dependent (consistent.head ready).1 member).1

/-- The loop stays consistent. -/
theorem Consistent.run {frontier : Frontier} (consistent : Consistent steps dependencies frontier)
    (once : ∀ target, (dependencies.getD target []).Nodup) (rounds : Nat) :
    Consistent steps dependencies (run steps dependencies rounds frontier) := by
  induction rounds generalizing frontier with
  | zero => exact consistent
  | succ rounds ih =>
    unfold Frontier.run
    cases ready : frontier.ready with
    | nil =>
      rw [(place_eq_none_iff frontier).mpr ready]
      exact consistent
    | cons first rest =>
      rw [place_cons frontier ready]
      exact ih (consistent.place once ready)

/-- When every step is placed, none is ready. -/
theorem Consistent.ready_eq_nil {frontier : Frontier} (consistent : Consistent steps dependencies frontier)
    (full : dependencies.length ≤ frontier.order.length) : frontier.ready = [] := by
  apply List.eq_nil_iff_forall_not_mem.mpr
  intro entry member
  obtain ⟨index, free, -⟩ := (consistent.mem_ready entry).mp member
  have all := consistent.greedy.perm_range (Nat.le_antisymm consistent.greedy.length_le full)
  exact free.2.1 (all.mem_iff.mpr (List.mem_range.mpr free.1))

/-- With a round for each step that is not placed, the loop runs until no step is ready. -/
theorem Consistent.run_ready {frontier : Frontier} (consistent : Consistent steps dependencies frontier)
    (once : ∀ target, (dependencies.getD target []).Nodup) (rounds : Nat)
    (enough : dependencies.length ≤ frontier.order.length + rounds) :
    (Frontier.run steps dependencies rounds frontier).ready = [] := by
  induction rounds generalizing frontier with
  | zero => exact consistent.ready_eq_nil enough
  | succ rounds ih =>
    unfold Frontier.run
    cases ready : frontier.ready with
    | nil =>
      rw [(place_eq_none_iff frontier).mpr ready]
      exact ready
    | cons first rest =>
      rw [place_cons frontier ready]
      apply ih (consistent.place once ready)
      simp only [releaseAll_order, take, List.length_append, List.length_singleton]
      omega

end Frontier
end Runbook.Plan

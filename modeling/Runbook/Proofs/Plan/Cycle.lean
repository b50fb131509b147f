import Mathlib.Data.Fintype.Card
import Mathlib.Data.Fintype.EquivFin
import Mathlib.Logic.Relation
import Mathlib.Order.WellFounded
import Runbook.Proofs.Plan.Graph

/-!
Cycles: a graph has a plan exactly when its edges form no cycle. The steps that are left over lie on a cycle or can be
reached from one, since a walk back along steps that are not placed never ends.
-/

namespace Runbook.Plan

open Relation

/-- A step leads back to itself. -/
def OnCycle (needs : Nat → Nat → Prop) (index : Nat) : Prop := TransGen needs index index

/-- A step lies on a cycle or can be reached from one. -/
def BehindCycle (needs : Nat → Nat → Prop) (index : Nat) : Prop :=
  ∃ origin, OnCycle needs origin ∧ ReflTransGen needs origin index

variable {needs : Nat → Nat → Prop} {count : Nat}

theorem OnCycle.behindCycle {index : Nat} (cycle : OnCycle needs index) : BehindCycle needs index :=
  ⟨index, cycle, .refl⟩

/-- A step behind a cycle needs a step behind a cycle. -/
theorem BehindCycle.exists_source {index : Nat} (behind : BehindCycle needs index) :
    ∃ source, BehindCycle needs source ∧ needs source index := by
  obtain ⟨origin, cycle, path⟩ := behind
  rcases path.cases_tail with rfl | ⟨source, before, last⟩
  · obtain ⟨source, around, last⟩ := TransGen.tail'_iff.mp cycle
    exact ⟨source, ⟨_, cycle, around⟩, last⟩
  · exact ⟨source, ⟨origin, cycle, before⟩, last⟩

theorem BehindCycle.step {source index : Nat} (behind : BehindCycle needs source) (needed : needs source index) :
    BehindCycle needs index := by
  obtain ⟨origin, cycle, path⟩ := behind
  exact ⟨origin, cycle, path.tail needed⟩

/-- A greedy order places no step behind a cycle. -/
theorem BehindCycle.notMem {steps : List Step} {order : List Nat} (greedy : Greedy steps needs count order)
    {index : Nat} (behind : BehindCycle needs index) : index ∉ order := by
  induction order using List.reverseRecOn generalizing index with
  | nil => exact List.not_mem_nil
  | append_singleton front last ih =>
    intro placed
    rcases List.mem_append.mp placed with earlier | now
    · exact ih greedy.left behind earlier
    · obtain rfl := List.mem_singleton.mp now
      obtain ⟨source, behindToo, needed⟩ := behind.exists_source
      exact ih greedy.left behindToo ((greedy front index [] rfl).1.2.2 source needed)

/-- Among finitely many steps that all need another one of them, each lies behind a cycle. -/
theorem behindCycle_of_sources (left : Nat → Prop) (bounded : ∀ index, left index → index < count)
    (sources : ∀ index, left index → ∃ source, left source ∧ needs source index) {index : Nat} (start : left index) :
    BehindCycle needs index := by
  by_contra free
  -- The steps left over that are behind no cycle: on them the edges lead back for ever without a cycle.
  let Rest := { index : Fin count // left index ∧ ¬BehindCycle needs index }
  have finite : Finite Rest := Subtype.finite
  let leads (first second : Rest) : Prop := TransGen needs first.1 second.1
  have irrefl : Std.Irrefl leads := ⟨fun step around => step.2.2 (OnCycle.behindCycle around)⟩
  have trans : IsTrans Rest leads := ⟨fun _ _ _ => TransGen.trans⟩
  have wellFounded : WellFounded leads := Finite.wellFounded_of_trans_of_irrefl leads
  obtain ⟨least, -, minimal⟩ :=
    wellFounded.has_min Set.univ ⟨⟨⟨index, bounded index start⟩, start, free⟩, Set.mem_univ _⟩
  obtain ⟨source, remains, needed⟩ := sources least.1 least.2.1
  exact minimal ⟨⟨source, bounded source remains⟩, remains, fun behind => least.2.2 (behind.step needed)⟩
    (Set.mem_univ _) (.single needed)

/-- When no step is free, the steps that are not placed are those behind a cycle. -/
theorem Greedy.notMem_iff_behindCycle {steps : List Step} {order : List Nat} (greedy : Greedy steps needs count order)
    (stuck : ∀ index, ¬Free needs count order index)
    (bounded : ∀ source index, needs source index → source < count) {index : Nat} (inside : index < count) :
    index ∉ order ↔ BehindCycle needs index := by
  refine ⟨fun unplaced => ?_, fun behind => behind.notMem greedy⟩
  apply behindCycle_of_sources (fun index => index < count ∧ index ∉ order) (fun _ remains => remains.1) _
    ⟨inside, unplaced⟩
  rintro other ⟨otherInside, otherUnplaced⟩
  have waits : ¬∀ source, needs source other → source ∈ order :=
    fun needed => stuck other ⟨otherInside, otherUnplaced, needed⟩
  obtain ⟨source, needed, missing⟩ : ∃ source, needs source other ∧ source ∉ order := by
    simpa only [not_forall, exists_prop] using waits
  exact ⟨source, ⟨bounded source other needed, missing⟩, needed⟩

variable {steps : List Step} {edges : List Edge} {links : List Link}

/-- The identifiers of the steps that are not placed, in the order of the steps. -/
def leftIds (steps : List Step) (order : List Nat) : List String :=
  ((List.range steps.length).filter (!order.contains ·)).filterMap fun index => steps[index]?.map Step.id

theorem range_filterMap_id (steps : List Step) :
    (List.range steps.length).filterMap (fun index => steps[index]?.map Step.id) = steps.map Step.id := by
  induction steps using List.reverseRecOn with
  | nil => rfl
  | append_singleton front last ih =>
    rw [List.length_append, List.length_singleton, List.range_succ, List.filterMap_append, List.map_append, ← ih]
    congr 1
    · apply List.filterMap_congr
      intro index member
      rw [List.getElem?_append_left (List.mem_range.mp member)]
    · simp

theorem leftIds_sublist (order : List Nat) : (leftIds steps order).Sublist (steps.map Step.id) := by
  rw [← range_filterMap_id]
  exact List.filter_sublist.filterMap _

theorem mem_leftIds (distinct : (steps.map Step.id).Nodup) {order : List Nat} {index : Nat} {id : String}
    (named : HasId steps index id) : id ∈ leftIds steps order ↔ index ∉ order := by
  simp only [leftIds, List.mem_filterMap, List.mem_filter, List.mem_range]
  constructor
  · rintro ⟨other, ⟨-, unplaced⟩, namedToo⟩
    obtain rfl := named.unique distinct namedToo
    simpa using unplaced
  · intro unplaced
    exact ⟨index, ⟨named.lt, by simpa using unplaced⟩, named⟩

theorem Joins.source_lt {source target : Nat} (joined : Joins steps edges source target) : source < steps.length := by
  obtain ⟨_, -, named, -⟩ := joined
  exact named.lt

theorem Joins.target_lt {source target : Nat} (joined : Joins steps edges source target) : target < steps.length := by
  obtain ⟨_, -, -, named⟩ := joined
  exact named.lt

theorem BehindCycle.lt {index : Nat} (behind : BehindCycle (Joins steps edges) index) : index < steps.length := by
  obtain ⟨source, -, joined⟩ := behind.exists_source
  exact joined.target_lt

/-- The steps that the planning leaves over are those behind a cycle. -/
theorem notMem_settled_iff (distinct : (steps.map Step.id).Nodup)
    (represent : List.Forall₂ (Represents steps) edges links) {index : Nat} (inside : index < steps.length) :
    index ∉ (settled steps links).order ↔ BehindCycle (Joins steps edges) index :=
  (settled_greedy distinct represent).notMem_iff_behindCycle (settled_stuck distinct represent)
    (fun _ _ joined => joined.source_lt) inside

/-- The planning places every step exactly when there is no cycle. -/
theorem settled_full_iff (distinct : (steps.map Step.id).Nodup)
    (represent : List.Forall₂ (Represents steps) edges links) :
    (settled steps links).order.length = steps.length ↔ ¬∃ index, OnCycle (Joins steps edges) index := by
  have greedy := settled_greedy distinct represent
  constructor
  · rintro full ⟨index, cycle⟩
    have inside := cycle.behindCycle.lt
    exact (notMem_settled_iff distinct represent inside).mpr cycle.behindCycle
      ((greedy.perm_range full).mem_iff.mpr (List.mem_range.mpr inside))
  · intro acyclic
    apply Nat.le_antisymm greedy.length_le
    have all : List.range steps.length ⊆ (settled steps links).order := by
      intro index member
      by_contra unplaced
      obtain ⟨origin, cycle, -⟩ := (notMem_settled_iff distinct represent (List.mem_range.mp member)).mp unplaced
      exact acyclic ⟨origin, cycle⟩
    simpa using (List.subperm_of_subset List.nodup_range all).length_le

/-- A graph is refused exactly for a cycle, and then for the steps on a cycle or behind one. Its planning ends, and
takes no counter below zero. -/
theorem graph_plan_error_iff_cycle (scenario : Scenario) (steps : List Step) (edges : List Edge)
    (flow : scenario.flow = .graph steps edges) (distinct : (steps.map Step.id).Nodup)
    (known : ∀ edge ∈ edges, edge.source ∈ steps.map Step.id ∧ edge.target ∈ steps.map Step.id) :
    ((∃ ids, scenario.plan = .error (.general (.cycle ids))) ↔ ∃ index, OnCycle (Joins steps edges) index) ∧
    (∀ ids, scenario.plan = .error (.general (.cycle ids)) → ids.Sublist (steps.map Step.id) ∧ ids.Nodup ∧
      ∀ index id, HasId steps index id → (id ∈ ids ↔ BehindCycle (Joins steps edges) index)) ∧
    ((¬∃ index, OnCycle (Joins steps edges) index) → ∃ plan, scenario.plan = .ok plan) ∧
    ∃ links, edges.mapM (link steps) = .ok links ∧ Completes steps links := by
  obtain ⟨links, linked⟩ := links_of_known distinct known
  have represent := (links_eq_ok_iff distinct).mp linked
  have full_iff := settled_full_iff distinct represent
  have planned : scenario.plan =
      if (settled steps links).order.length = steps.length then
        .ok ⟨(settled steps links).order, wires steps links, (List.range steps.length).map (inboundOf links)⟩
      else .error (.general (.cycle (leftIds steps (settled steps links).order))) := by
    rw [Scenario.plan, flow]
    exact ofGraph_of_links linked
  by_cases acyclic : ∃ index, OnCycle (Joins steps edges) index
  · rw [if_neg (fun full => full_iff.mp full acyclic)] at planned
    simp only [planned]
    refine ⟨⟨fun _ => acyclic, fun _ => ⟨_, rfl⟩⟩, ?_, fun none => absurd acyclic none, links, linked,
      completes steps links⟩
    rintro ids same
    cases same
    refine ⟨leftIds_sublist _, distinct.sublist (leftIds_sublist _), fun index id named => ?_⟩
    rw [mem_leftIds distinct named, notMem_settled_iff distinct represent named.lt]
  · rw [if_pos (full_iff.mpr acyclic)] at planned
    simp only [planned]
    refine ⟨⟨?_, fun cycle => absurd cycle acyclic⟩, ?_, fun _ => ⟨_, rfl⟩, links, linked, completes steps links⟩
    · rintro ⟨_, error⟩
      cases error
    · intro _ error
      cases error

/-- Four steps of a graph, two of them on a cycle and one behind it. -/
def loopedSteps : List Step := [plainStep "a" 0, plainStep "b" 0, plainStep "c" 0, plainStep "d" 0]

/-- The edges of the graph. -/
def loopedEdges : List Edge := [⟨"b", "c", []⟩, ⟨"c", "b", []⟩, ⟨"c", "d", []⟩, ⟨"b", "c", []⟩]

/-- A scenario over the graph. -/
def looped : Scenario := { id := "looped", name := "looped", flow := .graph loopedSteps loopedEdges }

theorem looped_refused :
    looped.plan = .error (.general (.cycle ["b", "c", "d"])) ∧
      (∃ index, OnCycle (Joins loopedSteps loopedEdges) index) ∧
      BehindCycle (Joins loopedSteps loopedEdges) 3 ∧ ¬BehindCycle (Joins loopedSteps loopedEdges) 0 := by
  obtain ⟨cyclic, exact, -⟩ := graph_plan_error_iff_cycle looped loopedSteps loopedEdges rfl (by decide) (by decide)
  have refused : looped.plan = .error (.general (.cycle ["b", "c", "d"])) := rfl
  obtain ⟨-, -, named⟩ := exact _ refused
  exact ⟨refused, cyclic.mp ⟨_, refused⟩, (named 3 "d" rfl).mp (by decide),
    fun behind => absurd ((named 0 "a" rfl).mpr behind) (by decide)⟩

end Runbook.Plan

import Mathlib.Data.List.Basic
import Mathlib.Logic.Relation
import Runbook.Proofs.Plan.Graph
import Runbook.Proofs.Plan.Greedy

/-!
The plans of valid scenarios. The plan of a script takes its steps by rank, each after the one before, so the steps that a
step depends on, directly or not, are all that stand before it.
-/

namespace Runbook.Plan

open Relation

/-- One step stands directly before another one. -/
def Adjacent (order : List Nat) (first second : Nat) : Prop := ∃ front back, order = front ++ first :: second :: back

theorem Adjacent.of_previous? {order : List Nat} {first second : Nat} (found : previous? order second = some first) :
    Adjacent order first second := by
  induction order with
  | nil => cases found
  | cons head rest ih =>
    cases rest with
    | nil => cases found
    | cons next tail =>
      unfold previous? at found
      split at found
      · next same =>
        obtain rfl : next = second := by simpa using same
        obtain rfl : head = first := by simpa using found
        exact ⟨[], tail, rfl⟩
      · obtain ⟨front, back, split⟩ := ih found
        exact ⟨head :: front, back, by rw [split, List.cons_append]⟩

/-- In an order without repetitions the previous step is the one directly before. -/
theorem previous?_eq_some_iff {order : List Nat} (nodup : order.Nodup) {first second : Nat} :
    previous? order second = some first ↔ Adjacent order first second := by
  refine ⟨Adjacent.of_previous?, ?_⟩
  rintro ⟨front, back, rfl⟩
  induction front with
  | nil => simp [previous?]
  | cons head rest ih =>
    obtain ⟨absent, nodup⟩ := List.nodup_cons.mp nodup
    obtain ⟨next, tail, split⟩ : ∃ next tail, rest ++ first :: second :: back = next :: tail :=
      List.exists_cons_of_ne_nil (by simp)
    have different : next ≠ second := by
      rintro rfl
      cases rest with
      | nil =>
        obtain rfl : first = next := (List.cons.inj split).1
        simp at nodup
      | cons other rest =>
        obtain rfl : other = next := (List.cons.inj split).1
        simp at nodup
    have later := ih nodup
    rw [List.cons_append, split] at *
    simpa [previous?, different] using later

theorem Adjacent.before {order : List Nat} (nodup : order.Nodup) {first second : Nat}
    (adjacent : Adjacent order first second) : Before order first second := by
  obtain ⟨front, back, rfl⟩ := adjacent
  have split : front ++ first :: second :: back = (front ++ [first]) ++ second :: back := by simp
  rw [split] at nodup ⊢
  exact before_of_mem_front nodup (by simp)

theorem adjacent_getElem {order : List Nat} {index : Nat} (inside : index + 1 < order.length) :
    Adjacent order order[index] order[index + 1] :=
  ⟨order.take index, order.drop (index + 2), by simp⟩

/-- What is linked by adjacent steps is what stands before. -/
theorem transGen_adjacent_iff {order : List Nat} (nodup : order.Nodup) {first second : Nat} :
    TransGen (Adjacent order) first second ↔ Before order first second := by
  constructor
  · intro path
    induction path with
    | single adjacent => exact adjacent.before nodup
    | tail _ adjacent ih =>
      have last := adjacent.before nodup
      exact ⟨last.1, Nat.lt_trans ih.2 last.2⟩
  · rintro ⟨member, earlier⟩
    have within := List.idxOf_lt_length_of_mem member
    have reach (start distance : Nat) (inside : start + distance + 1 < order.length) :
        TransGen (Adjacent order) order[start] order[start + distance + 1] := by
      induction distance with
      | zero => exact .single (adjacent_getElem inside)
      | succ distance ih => exact (ih (by omega)).tail (adjacent_getElem inside)
    have path := reach (order.idxOf first) (order.idxOf second - order.idxOf first - 1) (by omega)
    have finish : order.idxOf first + (order.idxOf second - order.idxOf first - 1) + 1 = order.idxOf second := by omega
    simpa only [finish, List.getElem_idxOf] using path

variable (steps : List Step)

theorem ofScript_order_perm : (ofScript steps).order.Perm (List.range steps.length) := List.mergeSort_perm _ _

theorem ofScript_order_nodup : (ofScript steps).order.Nodup :=
  (ofScript_order_perm steps).nodup_iff.mpr List.nodup_range

/-- A step of a script depends on the step directly before it. -/
theorem mem_ofScript_dependencies (source target : Nat) :
    source ∈ (ofScript steps).dependencies.getD target [] ↔ Adjacent (ofScript steps).order source target := by
  rw [← previous?_eq_some_iff (ofScript_order_nodup steps)]
  by_cases inside : target < steps.length
  · simp [ofScript, List.getD_eq_getElem?_getD, inside]
  · have outside : ¬Adjacent (ofScript steps).order source target := by
      rintro ⟨front, back, split⟩
      have member : target ∈ (ofScript steps).order := by simp [split]
      exact inside (List.mem_range.mp ((ofScript_order_perm steps).mem_iff.mp member))
    rw [previous?_eq_some_iff (ofScript_order_nodup steps)]
    simpa [ofScript, List.getD_eq_getElem?_getD, inside] using outside

/-- The plan in which each of so many steps depends on the one before it, in the order of their indices. -/
def chain (count : Nat) : Plan :=
  let before (index : Nat) : Option Nat := if index = 0 then none else some (index - 1)
  { order := List.range count
    dependencies := (List.range count).map fun index => (before index).toList
    inbound := (List.range count).map fun index => (before index).toList.map fun source => (source, []) }

theorem previous?_range {count index : Nat} (inside : index < count) :
    previous? (List.range count) index = if index = 0 then none else some (index - 1) := by
  have nodup : (List.range count).Nodup := List.nodup_range
  cases index with
  | zero =>
    rw [if_pos rfl, Option.eq_none_iff_forall_ne_some]
    intro first found
    obtain ⟨front, back, split⟩ := (previous?_eq_some_iff nodup).mp found
    have behind : (List.range count)[front.length + 1]? = some 0 := by simp [split]
    obtain ⟨within, same⟩ := List.getElem?_eq_some_iff.mp behind
    simp at same
  | succ index =>
    rw [if_neg (Nat.succ_ne_zero index), previous?_eq_some_iff nodup]
    have within : index + 1 < (List.range count).length := by simpa using inside
    have next := adjacent_getElem within
    rwa [List.getElem_range, List.getElem_range] at next

/-- The plan of steps that stand in sort order is a chain. -/
theorem ofScript_eq_chain {steps : List Step}
    (sorted : steps.Pairwise fun first second => first.sortOrder ≤ second.sortOrder) :
    ofScript steps = chain steps.length := by
  have order : (ofScript steps).order = List.range steps.length := by
    refine List.mergeSort_of_pairwise ?_
    rw [List.pairwise_iff_getElem] at sorted ⊢
    intro first second atFirst atSecond ahead
    simp only [List.length_range] at atFirst atSecond
    have orders := sorted first second atFirst atSecond ahead
    simp only [List.getElem_range, rank, Rank.before_iff, List.getElem?_eq_getElem, atFirst, atSecond, Option.map_some,
      Option.getD_some]
    omega
  have earlier : ∀ index ∈ List.range steps.length, previous? (ofScript steps).order index =
      if index = 0 then none else some (index - 1) := fun index member => by
    rw [order]
    exact previous?_range (List.mem_range.mp member)
  have wiring {α : Type} (entry : Option Nat → α) :
      (List.range steps.length).map (fun index => entry (previous? (ofScript steps).order index)) =
        (List.range steps.length).map fun index => entry (if index = 0 then none else some (index - 1)) :=
    List.map_congr_left fun index member => congrArg entry (earlier index member)
  exact Plan.mk.injEq .. ▸
    ⟨order, wiring Option.toList, wiring fun found => found.toList.map fun source => (source, [])⟩

end Runbook.Plan

/-!
What a run may rely on when its scenario is valid: the plan has one place for every step, what a step depends on stands
before it, and the dependencies lead along the edges of a graph or along the order of a script.
-/

namespace Runbook

open Relation

namespace Plan

/-- A step depends on another one directly. -/
def DependsOn (plan : Plan) : Nat → Nat → Prop := Needs plan.dependencies

/-- The order of a plan has one place for each step, and a step stands behind all that it depends on. -/
structure Sound (plan : Plan) (count : Nat) : Prop where
  order_perm : plan.order.Perm (List.range count)
  earlier : ∀ front index back, plan.order = front ++ index :: back →
    ∀ source, plan.DependsOn source index → source ∈ front

namespace Sound

variable {plan : Plan} {count : Nat}

theorem nodup (sound : plan.Sound count) : plan.order.Nodup := sound.order_perm.nodup_iff.mpr List.nodup_range

theorem mem_order_iff (sound : plan.Sound count) {index : Nat} : index ∈ plan.order ↔ index < count :=
  sound.order_perm.mem_iff.trans List.mem_range

/-- Where some steps come first, so does all that they depend on. -/
theorem mem_front (sound : plan.Sound count) {front back : List Nat} (split : plan.order = front ++ back)
    {source target : Nat} (member : target ∈ front) (depends : plan.DependsOn source target) : source ∈ front := by
  obtain ⟨before, after, rfl⟩ := List.append_of_mem member
  rw [List.append_assoc, List.cons_append] at split
  exact List.mem_append_left _ (sound.earlier before target (after ++ back) split source depends)

theorem source_lt (sound : plan.Sound count) {source target : Nat} (inside : target < count)
    (depends : plan.DependsOn source target) : source < count :=
  sound.mem_order_iff.mp (sound.mem_front (List.append_nil _).symm (sound.mem_order_iff.mpr inside) depends)

/-- What passes from all that a step depends on to the step itself holds of every step. -/
theorem induction (sound : plan.Sound count) {motive : Nat → Prop}
    (passes : ∀ index < count, (∀ source, plan.DependsOn source index → motive source) → motive index) {index : Nat}
    (inside : index < count) : motive index := by
  have all (front : List Nat) (initial : front <+: plan.order) : ∀ index ∈ front, motive index := by
    induction front using List.reverseRecOn with
    | nil => simp
    | append_singleton front last ih =>
      obtain ⟨back, split⟩ := initial
      rw [List.append_assoc] at split
      have earlier := ih ⟨_, split⟩
      intro index member
      rcases List.mem_append.mp member with old | own
      · exact earlier index old
      · obtain rfl := List.mem_singleton.mp own
        have placed : index ∈ plan.order := by simp [← split]
        exact passes index (sound.mem_order_iff.mp placed) fun source depends =>
          earlier source (sound.earlier front index back split.symm source depends)
  exact all plan.order (List.prefix_refl _) index (sound.mem_order_iff.mpr inside)

end Sound

theorem ofScript_sound (steps : List Step) : (ofScript steps).Sound steps.length where
  order_perm := ofScript_order_perm steps
  earlier front index back split source member := by
    have nodup := ofScript_order_nodup steps
    obtain ⟨before, after, adjacent⟩ := (mem_ofScript_dependencies steps source index).mp member
    have again : (ofScript steps).order = (before ++ [source]) ++ index :: after := by simp [adjacent]
    rw [front_unique nodup split again]
    simp

theorem Realizes.sound {steps : List Step} {edges : List Edge} {plan : Plan} (realizes : Realizes steps edges plan) :
    plan.Sound steps.length where
  order_perm := realizes.order_perm
  earlier front index back split source member :=
    (realizes.greedy front index back split).1.2.2 source ((realizes.mem_dependencies source index).mp member)

end Plan

namespace Scenario

variable {scenario : Scenario} {plan : Plan}

theorem not_seen_of_checkStep {seen : List String} {step : Step} (passed : checkStep seen step = .ok ()) :
    step.id ∉ seen := by
  intro member
  unfold checkStep at passed
  by_cases empty : (Text.trim step.id.toList).isEmpty
  · simp [empty, bind, Except.bind, throw, throwThe, MonadExceptOf.throw] at passed
  · simp [empty, member, bind, Except.bind, throw, throwThe, MonadExceptOf.throw] at passed

/-- Checked steps have identifiers that are distinct and new. -/
theorem distinct_of_checkSteps {seen : List String} {steps : List Step} (passed : checkSteps seen steps = .ok ()) :
    (steps.map Step.id).Nodup ∧ ∀ id ∈ steps.map Step.id, id ∉ seen := by
  induction steps generalizing seen with
  | nil => simp
  | cons step rest ih =>
    unfold checkSteps at passed
    cases first : checkStep seen step with
    | error error => simp [first, bind, Except.bind] at passed
    | ok _ =>
      rw [first] at passed
      obtain ⟨distinct, new⟩ := ih passed
      refine ⟨List.nodup_cons.mpr ⟨fun again => new _ again List.mem_cons_self, distinct⟩, ?_⟩
      intro id member
      rcases List.mem_cons.mp member with rfl | later
      · exact not_seen_of_checkStep first
      · exact fun old => new id later (List.mem_cons_of_mem _ old)

/-- A valid scenario has steps, their identifiers are distinct, and it has its plan. -/
theorem of_validate (valid : scenario.validate = .ok plan) :
    scenario.steps ≠ [] ∧ (scenario.steps.map Step.id).Nodup ∧ scenario.plan = .ok plan := by
  unfold validate at valid
  by_cases empty : scenario.steps.isEmpty
  · simp [empty, bind, Except.bind, throw, throwThe, MonadExceptOf.throw] at valid
  · cases checked : checkSteps [] scenario.steps with
    | error error => simp [empty, checked, bind, Except.bind] at valid
    | ok _ =>
      refine ⟨by simpa using empty, (distinct_of_checkSteps checked).1, ?_⟩
      simpa [empty, checked, bind, Except.bind, pure, Except.pure] using valid

/-- One step can be reached from another one along dependencies: along the edges of a graph, or forward in the order of
a script. -/
def Reaches (scenario : Scenario) (plan : Plan) (source target : Nat) : Prop :=
  match scenario.flow with
  | .script _ => Plan.Before plan.order source target
  | .graph steps edges => TransGen (Plan.Joins steps edges) source target

theorem sound_of_validate (valid : scenario.validate = .ok plan) : plan.Sound scenario.steps.length := by
  obtain ⟨-, distinct, planned⟩ := of_validate valid
  simp only [Scenario.steps] at distinct ⊢
  unfold Scenario.plan at planned
  cases flow : scenario.flow with
  | script steps =>
    simp only [flow] at planned
    cases planned
    exact Plan.ofScript_sound steps
  | graph steps edges =>
    simp only [flow] at planned distinct
    exact (Plan.ofGraph_realizes distinct planned).sound

theorem order_ne_nil (valid : scenario.validate = .ok plan) : plan.order ≠ [] := by
  intro empty
  have count := (sound_of_validate valid).order_perm.length_eq
  rw [empty, List.length_range] at count
  exact (of_validate valid).1 (List.length_eq_zero_iff.mp count.symm)

/-- The dependencies of a valid plan lead where the scenario says. -/
theorem transGen_dependsOn_iff (valid : scenario.validate = .ok plan) {source target : Nat} :
    TransGen plan.DependsOn source target ↔ scenario.Reaches plan source target := by
  obtain ⟨-, distinct, planned⟩ := of_validate valid
  simp only [Scenario.steps] at distinct
  unfold Scenario.plan at planned
  unfold Reaches
  cases flow : scenario.flow with
  | script steps =>
    simp only [flow] at planned ⊢
    cases planned
    have adjacent : (Plan.ofScript steps).DependsOn = Plan.Adjacent (Plan.ofScript steps).order :=
      funext₂ fun source target => propext (Plan.mem_ofScript_dependencies steps source target)
    rw [adjacent]
    exact Plan.transGen_adjacent_iff (Plan.ofScript_order_nodup steps)
  | graph steps edges =>
    simp only [flow] at planned distinct ⊢
    have joined : plan.DependsOn = Plan.Joins steps edges :=
      funext₂ fun source target => propext ((Plan.ofGraph_realizes distinct planned).mem_dependencies source target)
    rw [joined]

end Scenario
end Runbook

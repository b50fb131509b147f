import Mathlib.Data.List.Basic
import Mathlib.Data.List.Induction
import Mathlib.Data.List.Nodup
import Mathlib.Data.List.Perm.Basic
import Runbook.Plan

/-!
Greedy orders: at each place stands the step that comes first by rank among those that wait for nothing that is not
placed. There is at most one greedy order of a length, and what a placed step needs is placed before it.
-/

namespace Runbook.Plan

namespace Rank

theorem before_iff {first second : Rank} :
    first.before second = true ↔ first.1 < second.1 ∨ first.1 = second.1 ∧ first.2 ≤ second.2 := by
  simp [before]

theorem before_total (first second : Rank) : first.before second = true ∨ second.before first = true := by
  simp only [before_iff]
  omega

theorem before_trans {first second third : Rank} (left : first.before second = true)
    (right : second.before third = true) : first.before third = true := by
  rw [before_iff] at left right ⊢
  omega

theorem before_antisymm {first second : Rank} (left : first.before second = true)
    (right : second.before first = true) : first = second := by
  rw [before_iff] at left right
  exact Prod.ext (by omega) (by omega)

end Rank

theorem rank_injective (steps : List Step) : Function.Injective (rank steps) :=
  fun _ _ same => congrArg Prod.snd same

/-- In an order without repetitions one thing stands before a step. -/
theorem front_unique {order front back otherFront otherBack : List Nat} {index : Nat} (nodup : order.Nodup)
    (split : order = front ++ index :: back) (again : order = otherFront ++ index :: otherBack) :
    front = otherFront := by
  subst split
  obtain ⟨-, inBack, apart⟩ := List.nodup_append'.mp nodup
  have absent : index ∉ front := fun early => apart early List.mem_cons_self
  exact ((List.append_cons_inj_of_notMem absent (List.nodup_cons.mp inBack).1).mp again).1

/-- One step stands before another one in an order. -/
def Before (order : List Nat) (first second : Nat) : Prop := second ∈ order ∧ order.idxOf first < order.idxOf second

theorem before_of_mem_front {front back : List Nat} {first second : Nat} (nodup : (front ++ second :: back).Nodup)
    (earlier : first ∈ front) : Before (front ++ second :: back) first second := by
  have absent : second ∉ front := fun early => (List.nodup_append'.mp nodup).2.2 early List.mem_cons_self
  refine ⟨List.mem_append_right _ List.mem_cons_self, ?_⟩
  rw [List.idxOf_append_of_mem earlier, List.idxOf_append_of_notMem absent, List.idxOf_cons_self]
  exact List.idxOf_lt_length_of_mem earlier

/-- A step is free when it is not placed and all the steps that it needs are. -/
def Free (needs : Nat → Nat → Prop) (count : Nat) (placed : List Nat) (index : Nat) : Prop :=
  index < count ∧ index ∉ placed ∧ ∀ source, needs source index → source ∈ placed

/-- At each place of the order stands the free step that comes first by rank. -/
def Greedy (steps : List Step) (needs : Nat → Nat → Prop) (count : Nat) (order : List Nat) : Prop :=
  ∀ front index back, order = front ++ index :: back → Free needs count front index ∧
    ∀ other, Free needs count front other → (rank steps index).before (rank steps other) = true

namespace Greedy

variable {steps : List Step} {needs : Nat → Nat → Prop} {count : Nat} {order : List Nat}

theorem nil : Greedy steps needs count [] := by
  intro front index back split
  simp at split

theorem append (greedy : Greedy steps needs count order) {index : Nat} (free : Free needs count order index)
    (first : ∀ other, Free needs count order other → (rank steps index).before (rank steps other) = true) :
    Greedy steps needs count (order ++ [index]) := by
  intro front placed back split
  rcases List.eq_nil_or_concat back with rfl | ⟨before, last, rfl⟩
  · obtain ⟨rfl, same⟩ := List.append_inj' split rfl
    cases same
    exact ⟨free, first⟩
  · rw [List.concat_eq_append, ← List.cons_append, ← List.append_assoc] at split
    exact greedy front placed before (List.append_inj' split rfl).1

theorem lt (greedy : Greedy steps needs count order) {index : Nat} (member : index ∈ order) : index < count := by
  obtain ⟨front, back, split⟩ := List.append_of_mem member
  exact (greedy front index back split).1.1

theorem left {front back : List Nat} (greedy : Greedy steps needs count (front ++ back)) :
    Greedy steps needs count front := by
  rintro before index after rfl
  exact greedy before index (after ++ back) (by simp)

theorem nodup (greedy : Greedy steps needs count order) : order.Nodup := by
  induction order using List.reverseRecOn with
  | nil => exact List.nodup_nil
  | append_singleton front index ih =>
    rw [← List.concat_eq_append]
    exact (ih greedy.left).concat (greedy front index [] rfl).1.2.1

/-- What a placed step needs is placed. -/
theorem source_mem (greedy : Greedy steps needs count order) {source index : Nat} (member : index ∈ order)
    (needed : needs source index) : source ∈ order := by
  obtain ⟨front, back, rfl⟩ := List.append_of_mem member
  exact List.mem_append_left _ ((greedy front index back rfl).1.2.2 source needed)

/-- Two greedy orders place the same steps, as far as both go. -/
theorem unique {other : List Nat} (greedy : Greedy steps needs count order) (alike : Greedy steps needs count other)
    (sameLength : order.length = other.length) : order = other := by
  induction order using List.reverseRecOn generalizing other with
  | nil => exact (List.length_eq_zero_iff.mp sameLength.symm).symm
  | append_singleton front index ih =>
    obtain rfl | ⟨before, last, rfl⟩ := List.eq_nil_or_concat other
    · simp at sameLength
    rw [List.concat_eq_append] at alike sameLength ⊢
    obtain rfl : front = before := ih greedy.left alike.left (by simpa using sameLength)
    obtain ⟨free, first⟩ := greedy front index [] rfl
    obtain ⟨freeToo, firstToo⟩ := alike front last [] rfl
    rw [rank_injective steps (Rank.before_antisymm (first last freeToo) (firstToo index free))]

/-- An order that places every step is a permutation of them. -/
theorem perm_range (greedy : Greedy steps needs count order) (full : order.length = count) :
    order.Perm (List.range count) := by
  have subset : order ⊆ List.range count := fun index member => List.mem_range.mpr (greedy.lt member)
  exact (List.subperm_of_subset greedy.nodup subset).perm_of_length_le (by simp [full])

theorem length_le (greedy : Greedy steps needs count order) : order.length ≤ count := by
  have subset : order ⊆ List.range count := fun index member => List.mem_range.mpr (greedy.lt member)
  simpa using (List.subperm_of_subset greedy.nodup subset).length_le

/-- Once no step is free in an order, no greedy order places a step that it does not. -/
theorem subset_of_stuck {other : List Nat} (greedy : Greedy steps needs count order)
    (stuck : ∀ index, ¬Free needs count other index) : order ⊆ other := by
  induction order using List.reverseRecOn with
  | nil => exact List.nil_subset _
  | append_singleton front index ih =>
    have before := ih greedy.left
    obtain ⟨inside, -, needed⟩ := (greedy front index [] rfl).1
    rw [List.append_subset]
    refine ⟨before, List.cons_subset.mpr ⟨?_, List.nil_subset _⟩⟩
    by_contra unplaced
    exact stuck index ⟨inside, unplaced, fun source needs => before (needed source needs)⟩

/-- There is one greedy order that leaves no step free. -/
theorem unique_of_stuck {other : List Nat} (greedy : Greedy steps needs count order)
    (alike : Greedy steps needs count other) (stuck : ∀ index, ¬Free needs count order index)
    (stuckToo : ∀ index, ¬Free needs count other index) : order = other := by
  apply greedy.unique alike
  apply Nat.le_antisymm
  · exact (List.subperm_of_subset greedy.nodup (greedy.subset_of_stuck stuckToo)).length_le
  · exact (List.subperm_of_subset alike.nodup (alike.subset_of_stuck stuck)).length_le

/-- What a step needs stands before it. -/
theorem before_of_needs (greedy : Greedy steps needs count order) {source index : Nat} (member : index ∈ order)
    (needed : needs source index) : Before order source index := by
  obtain ⟨front, back, rfl⟩ := List.append_of_mem member
  exact before_of_mem_front greedy.nodup ((greedy front index back rfl).1.2.2 source needed)

end Greedy
end Runbook.Plan

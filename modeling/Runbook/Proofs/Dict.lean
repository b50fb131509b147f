import Mathlib.Data.List.Induction
import Runbook.Dict

/-!
Dictionaries as they are built: pairs with different keys, in whatever order, make up the one dictionary that holds
them.
-/

namespace Runbook.Dict

variable {α : Type} {dict : Dict α} {key : String}

theorem ofPairs_append_singleton (rest : List (String × α)) (last : String × α) :
    ofPairs (rest ++ [last]) = (ofPairs rest).insert last.1 last.2 := by
  simp [ofPairs]

/-- A dictionary with a value put at a key holds that pair and pairs that it held before. -/
theorem mem_of_mem_insert {value : α} {pair : String × α} (member : pair ∈ dict.insert key value) :
    pair = (key, value) ∨ pair ∈ dict := by
  induction dict with
  | nil => exact .inl (List.mem_singleton.mp member)
  | cons first rest ih =>
    obtain ⟨other, held⟩ := first
    unfold insert at member
    split at member
    · exact List.mem_cons.mp member
    · split at member
      · exact (List.mem_cons.mp member).imp_right (List.mem_cons_of_mem _)
      · rcases List.mem_cons.mp member with rfl | later
        · exact .inr List.mem_cons_self
        · exact (ih later).imp_right (List.mem_cons_of_mem _)

/-- The keys stay in order when a value is put at a key. -/
theorem Sorted.insert (sorted : dict.Sorted) (key : String) (value : α) : (dict.insert key value).Sorted := by
  induction dict with
  | nil => exact List.pairwise_singleton _ _
  | cons pair rest ih =>
    obtain ⟨beyond, later⟩ := List.pairwise_cons.mp sorted
    unfold Dict.insert
    split
    · next before =>
      refine List.pairwise_cons.mpr ⟨fun other member => ?_, sorted⟩
      rcases List.mem_cons.mp member with rfl | inside
      · exact before
      · exact String.lt_trans before (beyond other inside)
    · split
      · next same =>
        subst same
        exact List.pairwise_cons.mpr ⟨beyond, later⟩
      · next notBefore other =>
        refine List.pairwise_cons.mpr ⟨fun held member => ?_, ih later⟩
        rcases mem_of_mem_insert member with rfl | inside
        · by_contra notBehind
          exact other (String.le_antisymm (String.not_lt.mp notBehind) (String.not_lt.mp notBefore))
        · exact beyond held inside

/-- A value at a new key joins the pairs. -/
theorem insert_perm (fresh : key ∉ dict.map Prod.fst) (value : α) :
    (dict.insert key value).Perm ((key, value) :: dict) := by
  induction dict with
  | nil => exact .refl _
  | cons pair rest ih =>
    obtain ⟨other, later⟩ : key ≠ pair.1 ∧ key ∉ rest.map Prod.fst := by simpa using fresh
    unfold insert
    split
    · exact .refl _
    · exact ((ih later).cons pair).trans (.swap (key, value) pair rest)

theorem sorted_ofPairs (pairs : List (String × α)) : (ofPairs pairs).Sorted := by
  induction pairs using List.reverseRecOn with
  | nil => exact .nil
  | append_singleton rest last ih =>
    rw [ofPairs_append_singleton]
    exact ih.insert last.1 last.2

/-- A dictionary of pairs with different keys holds those pairs. -/
theorem ofPairs_perm {pairs : List (String × α)} (distinct : (pairs.map Prod.fst).Nodup) :
    (ofPairs pairs).Perm pairs := by
  induction pairs using List.reverseRecOn with
  | nil => exact .refl _
  | append_singleton rest last ih =>
    rw [List.map_append, List.nodup_append] at distinct
    obtain ⟨before, -, apart⟩ := distinct
    have held := ih before
    have fresh : last.1 ∉ (ofPairs rest).map Prod.fst := by
      intro member
      exact apart _ ((held.map Prod.fst).mem_iff.mp member) _ List.mem_cons_self rfl
    rw [ofPairs_append_singleton]
    exact (insert_perm fresh last.2).trans ((held.cons last).trans (List.perm_append_singleton last rest).symm)

theorem Sorted.nodup (sorted : dict.Sorted) : (dict.map Prod.fst).Nodup := by
  apply List.pairwise_map.mpr
  apply List.Pairwise.imp _ sorted
  intro first second before same
  exact String.lt_irrefl _ (same ▸ before)

/-- The order in which the pairs of a dictionary are given does not matter. -/
theorem ofPairs_eq_of_perm {pairs : List (String × α)} (sorted : dict.Sorted) (perm : pairs.Perm dict) :
    ofPairs pairs = dict := by
  have distinct : (pairs.map Prod.fst).Nodup := (perm.map Prod.fst).nodup_iff.mpr sorted.nodup
  refine List.Perm.eq_of_pairwise (fun first second _ _ before after => ?_) (sorted_ofPairs pairs) sorted
    ((ofPairs_perm distinct).trans perm)
  exact absurd after (String.lt_asymm before)

theorem ofPairs_eq_self (sorted : dict.Sorted) : ofPairs dict = dict := ofPairs_eq_of_perm sorted (.refl dict)

end Runbook.Dict

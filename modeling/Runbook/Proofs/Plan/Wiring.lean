import Mathlib.Data.List.Forall2
import Mathlib.Data.List.Nodup
import Runbook.Plan
import Runbook.Proofs.Control

/-!
The wiring of a graph: which steps its edges join. With distinct identifiers an edge names one source and one target,
so the dependencies of a step are the sources of its edges, and its inbound entries are its edges one by one.
-/

namespace Runbook

namespace Plan

/-- A step of a list has an identifier. -/
def HasId (steps : List Step) (index : Nat) (id : String) : Prop := steps[index]?.map Step.id = some id

instance (steps : List Step) (index : Nat) (id : String) : Decidable (HasId steps index id) :=
  inferInstanceAs (Decidable (_ = _))

/-- An edge leads from one step to another. -/
def Joins (steps : List Step) (edges : List Edge) (source target : Nat) : Prop :=
  ∃ edge ∈ edges, HasId steps source edge.source ∧ HasId steps target edge.target

/-- A link stands for an edge: it leads between the steps that the edge names. -/
structure Represents (steps : List Step) (edge : Edge) (link : Link) : Prop where
  source : HasId steps link.source edge.source
  target : HasId steps link.target edge.target
  mapping : link.mapping = edge.mapping

variable {steps : List Step} {edges : List Edge} {links : List Link}

theorem HasId.lt {index : Nat} {id : String} (named : HasId steps index id) : index < steps.length := by
  by_contra outside
  simp [HasId, List.getElem?_eq_none (Nat.le_of_not_lt outside)] at named

theorem exists_hasId_iff {id : String} : (∃ index, HasId steps index id) ↔ id ∈ steps.map Step.id := by
  simp only [HasId, ← List.getElem?_map, List.mem_iff_getElem?]

/-- Distinct identifiers name one step each. -/
theorem HasId.unique (distinct : (steps.map Step.id).Nodup) {first second : Nat} {id : String}
    (atFirst : HasId steps first id) (atSecond : HasId steps second id) : first = second := by
  have inside : first < (steps.map Step.id).length := by simpa using atFirst.lt
  apply (List.getElem?_inj inside distinct).mp
  simpa only [HasId, ← List.getElem?_map] using atFirst.trans atSecond.symm

theorem indexOf?_eq_some_iff (distinct : (steps.map Step.id).Nodup) {id : String} {index : Nat} :
    indexOf? steps id = some index ↔ HasId steps index id := by
  constructor
  · intro found
    simpa [HasId] using List.find?_some found
  · intro named
    cases found : indexOf? steps id with
    | none =>
      have absent := List.find?_eq_none.mp found index (by simpa using named.lt)
      exact absurd named (by simpa [HasId] using absent)
    | some other =>
      have atOther : HasId steps other id := by simpa [HasId] using List.find?_some found
      rw [atOther.unique distinct named]

/-- An edge becomes the link that stands for it. -/
theorem link_eq_ok_iff (distinct : (steps.map Step.id).Nodup) {edge : Edge} {result : Link} :
    link steps edge = .ok result ↔ Represents steps edge result := by
  constructor
  · intro linked
    unfold link at linked
    split at linked
    · cases linked
    · cases linked
    · next source target atSource atTarget =>
      cases linked
      exact ⟨(indexOf?_eq_some_iff distinct).mp atSource, (indexOf?_eq_some_iff distinct).mp atTarget, rfl⟩
  · intro represents
    have atSource := (indexOf?_eq_some_iff distinct).mpr represents.source
    have atTarget := (indexOf?_eq_some_iff distinct).mpr represents.target
    simp [link, atSource, atTarget, ← represents.mapping]

/-- The links of a graph stand for its edges one by one. -/
theorem links_eq_ok_iff (distinct : (steps.map Step.id).Nodup) :
    edges.mapM (link steps) = .ok links ↔ List.Forall₂ (Represents steps) edges links := by
  rw [mapM_eq_ok_iff]
  simp only [link_eq_ok_iff distinct]

theorem exists_represents (represent : List.Forall₂ (Represents steps) edges links) {edge : Edge}
    (member : edge ∈ edges) : ∃ link, Represents steps edge link := by
  induction represent with
  | nil => cases member
  | @cons first link rest links represents _ ih =>
    rcases List.mem_cons.mp member with rfl | later
    · exact ⟨link, represents⟩
    · exact ih later

/-- Edges between steps that exist become links. -/
theorem links_of_known (distinct : (steps.map Step.id).Nodup)
    (known : ∀ edge ∈ edges, edge.source ∈ steps.map Step.id ∧ edge.target ∈ steps.map Step.id) :
    ∃ links, edges.mapM (link steps) = .ok links := by
  simp only [links_eq_ok_iff distinct]
  induction edges with
  | nil => exact ⟨[], .nil⟩
  | cons edge rest ih =>
    obtain ⟨links, represent⟩ := ih fun other member => known other (List.mem_cons_of_mem _ member)
    obtain ⟨atSource, atTarget⟩ := known edge List.mem_cons_self
    obtain ⟨source, named⟩ := exists_hasId_iff.mpr atSource
    obtain ⟨target, called⟩ := exists_hasId_iff.mpr atTarget
    exact ⟨⟨source, target, edge.mapping⟩ :: links, .cons ⟨named, called, rfl⟩ represent⟩

/-- The list with an element added unless it is there. -/
def keepNew (kept : List Nat) (element : Nat) : List Nat :=
  if kept.contains element then kept else kept ++ [element]

theorem firsts_eq_foldl (elements : List Nat) : firsts elements = elements.foldl keepNew [] := rfl

theorem mem_keepNew {kept : List Nat} {added element : Nat} :
    element ∈ keepNew kept added ↔ element ∈ kept ∨ element = added := by
  by_cases old : added ∈ kept
  · rw [keepNew, if_pos (by simpa using old)]
    exact ⟨Or.inl, fun either => either.elim id fun same => same ▸ old⟩
  · rw [keepNew, if_neg (by simpa using old), List.mem_append, List.mem_singleton]

theorem nodup_keepNew {kept : List Nat} (nodup : kept.Nodup) (added : Nat) : (keepNew kept added).Nodup := by
  by_cases old : added ∈ kept
  · rwa [keepNew, if_pos (by simpa using old)]
  · rw [keepNew, if_neg (by simpa using old), ← List.concat_eq_append]
    exact nodup.concat old

theorem mem_foldl_keepNew (elements kept : List Nat) (element : Nat) :
    element ∈ elements.foldl keepNew kept ↔ element ∈ kept ∨ element ∈ elements := by
  induction elements generalizing kept with
  | nil => simp
  | cons first rest ih => rw [List.foldl_cons, ih, mem_keepNew, List.mem_cons, or_assoc]

theorem nodup_foldl_keepNew (elements : List Nat) {kept : List Nat} (nodup : kept.Nodup) :
    (elements.foldl keepNew kept).Nodup := by
  induction elements generalizing kept with
  | nil => exact nodup
  | cons first rest ih => exact ih (nodup_keepNew nodup first)

@[simp] theorem mem_firsts {elements : List Nat} {element : Nat} : element ∈ firsts elements ↔ element ∈ elements := by
  rw [firsts_eq_foldl, mem_foldl_keepNew]
  simp

theorem nodup_firsts (elements : List Nat) : (firsts elements).Nodup :=
  nodup_foldl_keepNew elements List.nodup_nil

/-- The sources of a step are the steps that an edge joins to it. -/
theorem mem_sourcesOf (distinct : (steps.map Step.id).Nodup) (represent : List.Forall₂ (Represents steps) edges links)
    {source target : Nat} : source ∈ sourcesOf links target ↔ Joins steps edges source target := by
  simp only [sourcesOf, mem_firsts, List.mem_map, List.mem_filter, beq_iff_eq]
  induction represent with
  | nil => simp [Joins]
  | @cons edge link rest links represents _ ih =>
    have here : link.target = target ∧ link.source = source ↔
        HasId steps source edge.source ∧ HasId steps target edge.target := by
      constructor
      · rintro ⟨rfl, rfl⟩
        exact ⟨represents.source, represents.target⟩
      · rintro ⟨atSource, atTarget⟩
        exact ⟨represents.target.unique distinct atTarget, represents.source.unique distinct atSource⟩
    simp only [Joins, List.mem_cons, or_and_right, exists_or, exists_eq_left, and_assoc, here] at ih ⊢
    rw [ih]

/-- The inbound entries of a step stand for the edges into it, in the order of the edges. -/
theorem inboundOf_forall₂ (distinct : (steps.map Step.id).Nodup)
    (represent : List.Forall₂ (Represents steps) edges links) (target : Nat) :
    List.Forall₂ (fun edge entry => HasId steps entry.1 edge.source ∧ entry.2 = edge.mapping)
      (edges.filter fun edge => HasId steps target edge.target) (inboundOf links target) := by
  unfold inboundOf
  induction represent with
  | nil => exact .nil
  | @cons edge link rest links represents _ ih =>
    by_cases into : link.target = target
    · have named : HasId steps target edge.target := into ▸ represents.target
      rw [List.filter_cons_of_pos (by simpa using named), List.filter_cons_of_pos (by simpa using into)]
      exact .cons ⟨represents.source, represents.mapping⟩ ih
    · have unnamed : ¬HasId steps target edge.target := fun named => into (represents.target.unique distinct named)
      rw [List.filter_cons_of_neg (by simpa using unnamed), List.filter_cons_of_neg (by simpa using into)]
      exact ih

end Plan
end Runbook

import Runbook.Proofs.Plan.Valid

/-!
What a plan says about the edges into a step: for a graph they are the edges that name the step as their target, in the
order in which they are declared; a script has none that hands anything on.
-/

namespace Runbook

/-- The edges of a flow in declaration order; a script has none. -/
def Flow.edges : Flow → List Edge
  | .script _ => []
  | .graph _ edges => edges

namespace Scenario

/-- The edges into the step with an identifier, in declaration order. -/
def edgesInto (scenario : Scenario) (id : String) : List Edge := scenario.flow.edges.filter (·.target == id)

variable {scenario : Scenario} {plan : Plan} {index : Nat} {step : Step}

/-- An element of the second of two related lists is related to one of the first. -/
theorem exists_of_forall₂ {α β : Type} {related : α → β → Prop} {first : List α} {second : List β}
    (relates : List.Forall₂ related first second) {element : β} (member : element ∈ second) :
    ∃ other ∈ first, related other element := by
  induction relates with
  | nil => cases member
  | @cons other _ _ _ pair _ ih =>
    rcases List.mem_cons.mp member with rfl | later
    · exact ⟨other, List.mem_cons_self, pair⟩
    · obtain ⟨partner, inside, relation⟩ := ih later
      exact ⟨partner, List.mem_cons_of_mem _ inside, relation⟩

/-- An edge into a step comes from a step that it depends on. -/
theorem dependsOn_of_mem_inbound (valid : scenario.validate = .ok plan) {entry : Nat × Dict String}
    (member : entry ∈ plan.inbound.getD index []) : plan.DependsOn entry.1 index := by
  obtain ⟨-, distinct, planned⟩ := of_validate valid
  simp only [Scenario.steps] at distinct
  unfold Scenario.plan at planned
  unfold Plan.DependsOn Plan.Needs
  cases flow : scenario.flow with
  | script steps =>
    simp only [flow] at planned
    cases planned
    by_cases inside : index < steps.length
    · simp only [Plan.ofScript, List.getD_eq_getElem?_getD, List.getElem?_map, List.getElem?_range inside,
        Option.map_some, Option.getD_some, List.mem_map] at member ⊢
      obtain ⟨source, sourceMember, rfl⟩ := member
      exact sourceMember
    · simp [Plan.ofScript, List.getD_eq_getElem?_getD, inside] at member
  | graph steps edges =>
    simp only [flow] at planned distinct
    have realizes := Plan.ofGraph_realizes distinct planned
    rw [realizes.mem_dependencies]
    obtain ⟨edge, edgeMember, source, -⟩ := exists_of_forall₂ (realizes.inbound_edges index) member
    obtain ⟨declared, target⟩ := List.mem_filter.mp edgeMember
    exact ⟨edge, declared, source, by simpa using target⟩

/-- What is read off the entries of a plan for a step is read off the edges into the step, if entries without a mapping
say nothing. -/
theorem flatMap_inbound {β : Type} (valid : scenario.validate = .ok plan) (atIndex : scenario.steps[index]? = some step)
    (ofEntry : Nat → Dict String → List β) (ofEdge : Edge → List β) (silent : ∀ source, ofEntry source [] = [])
    (agree : ∀ edge source, Plan.HasId scenario.steps source edge.source → ofEntry source edge.mapping = ofEdge edge) :
    ((plan.inbound.getD index []).flatMap fun entry => ofEntry entry.1 entry.2) =
      (scenario.edgesInto step.id).flatMap ofEdge := by
  obtain ⟨-, distinct, planned⟩ := of_validate valid
  simp only [Scenario.steps] at distinct atIndex agree
  unfold Scenario.plan at planned
  unfold edgesInto
  cases flow : scenario.flow with
  | script steps =>
    simp only [flow] at planned
    cases planned
    by_cases inside : index < steps.length
    · simp [Plan.ofScript, List.getD_eq_getElem?_getD, inside, Flow.edges, silent]
    · simp [Plan.ofScript, List.getD_eq_getElem?_getD, inside, Flow.edges]
  | graph steps edges =>
    simp only [flow, Flow.steps, Flow.edges] at planned distinct atIndex agree ⊢
    have target (edge : Edge) : decide (Plan.HasId steps index edge.target) = (edge.target == step.id) := by
      simp only [Plan.HasId, atIndex, Option.map_some, Option.some.injEq, beq_eq_decide]
      exact decide_eq_decide.mpr ⟨Eq.symm, Eq.symm⟩
    have entries := (Plan.ofGraph_realizes distinct planned).inbound_edges index
    simp only [target] at entries
    generalize edges.filter (·.target == step.id) = into at entries ⊢
    generalize plan.inbound.getD index [] = inbound at entries ⊢
    induction entries with
    | nil => rfl
    | cons named _ ih =>
      obtain ⟨source, same⟩ := named
      rw [List.flatMap_cons, List.flatMap_cons, ih, same, agree _ _ source]

end Scenario
end Runbook

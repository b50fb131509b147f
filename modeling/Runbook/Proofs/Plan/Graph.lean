import Runbook.Proofs.Plan.Frontier
import Runbook.Proofs.Plan.Wiring

/-!
The plan of a graph: a greedy order of its steps along its edges. The order depends on which steps the edges join, and
on nothing else about the edges.
-/

namespace Runbook.Plan

variable {steps : List Step} {edges : List Edge} {links : List Link}

/-- The dependencies of every step. -/
def wires (steps : List Step) (links : List Link) : List (List Nat) :=
  (List.range steps.length).map (sourcesOf links)

/-- The planning of a graph at its end. -/
def settled (steps : List Step) (links : List Link) : Frontier :=
  (Frontier.start steps (wires steps links)).run steps (wires steps links) steps.length

@[simp] theorem wires_length : (wires steps links).length = steps.length := by simp [wires]

theorem wires_getD (target : Nat) :
    (wires steps links).getD target [] = if target < steps.length then sourcesOf links target else [] := by
  by_cases inside : target < steps.length <;> simp [wires, List.getD_eq_getElem?_getD, inside]

theorem wires_nodup (target : Nat) : ((wires steps links).getD target []).Nodup := by
  rw [wires_getD]
  split
  · exact nodup_firsts _
  · exact List.nodup_nil

/-- A step needs exactly the steps that an edge joins to it. -/
theorem mem_wires (distinct : (steps.map Step.id).Nodup) (represent : List.Forall₂ (Represents steps) edges links)
    (source target : Nat) : source ∈ (wires steps links).getD target [] ↔ Joins steps edges source target := by
  rw [wires_getD]
  split
  · exact mem_sourcesOf distinct represent
  · next outside =>
    have apart : ¬Joins steps edges source target := fun ⟨_, _, _, named⟩ => outside named.lt
    simp [apart]

theorem needs_wires (distinct : (steps.map Step.id).Nodup) (represent : List.Forall₂ (Represents steps) edges links) :
    Needs (wires steps links) = Joins steps edges :=
  funext₂ fun source target => propext (mem_wires distinct represent source target)

theorem start_rounds_consistent (rounds : Nat) : Frontier.Consistent steps (wires steps links)
    (Frontier.run steps (wires steps links) rounds (Frontier.start steps (wires steps links))) :=
  (Frontier.start_consistent _ _).run wires_nodup rounds

theorem settled_consistent : Frontier.Consistent steps (wires steps links) (settled steps links) :=
  start_rounds_consistent steps.length

theorem settled_ready : (settled steps links).ready = [] :=
  (Frontier.start_consistent _ _).run_ready wires_nodup _ (by simp)

/-- The planning ends, and on its way takes no counter below zero. -/
structure Completes (steps : List Step) (links : List Link) : Prop where
  ends : (settled steps links).place steps (wires steps links) = none
  countsDown : ∀ rounds, Frontier.CountsDown steps (wires steps links)
    ((Frontier.start steps (wires steps links)).run steps (wires steps links) rounds)

theorem completes (steps : List Step) (links : List Link) : Completes steps links where
  ends := (Frontier.place_eq_none_iff _).mpr settled_ready
  countsDown rounds := (start_rounds_consistent rounds).countsDown

/-- The order of a graph is greedy along its edges. -/
theorem settled_greedy (distinct : (steps.map Step.id).Nodup)
    (represent : List.Forall₂ (Represents steps) edges links) :
    Greedy steps (Joins steps edges) steps.length (settled steps links).order := by
  have consistent : Frontier.Consistent steps (wires steps links) (settled steps links) := settled_consistent
  have greedy := consistent.greedy
  rwa [needs_wires distinct represent, wires_length] at greedy

/-- At the end of the planning no step could be placed. -/
theorem settled_stuck (distinct : (steps.map Step.id).Nodup)
    (represent : List.Forall₂ (Represents steps) edges links) (index : Nat) :
    ¬Free (Joins steps edges) steps.length (settled steps links).order index := by
  intro free
  have size : (wires steps links).length = steps.length := wires_length
  rw [← needs_wires distinct represent, ← size] at free
  have ready := (settled_consistent.mem_ready (rank steps index)).mpr ⟨index, free, rfl⟩
  rw [settled_ready] at ready
  cases ready

/-- A graph whose edges have links is planned when every step is placed, and refused otherwise. -/
theorem ofGraph_of_links (linked : edges.mapM (link steps) = .ok links) :
    ofGraph steps edges =
      if (settled steps links).order.length = steps.length then
        .ok ⟨(settled steps links).order, wires steps links, (List.range steps.length).map (inboundOf links)⟩
      else .error (.general (.cycle (((List.range steps.length).filter
        (!(settled steps links).order.contains ·)).filterMap fun index => steps[index]?.map Step.id))) := by
  simp only [ofGraph, linked, bind, Except.bind]
  rfl

theorem ofGraph_of_full (linked : edges.mapM (link steps) = .ok links)
    (full : (settled steps links).order.length = steps.length) :
    ∃ plan, ofGraph steps edges = .ok plan ∧ plan.order = (settled steps links).order := by
  rw [ofGraph_of_links linked, if_pos full]
  exact ⟨_, rfl, rfl⟩

theorem full_of_ofGraph (linked : edges.mapM (link steps) = .ok links) {plan : Plan}
    (planned : ofGraph steps edges = .ok plan) :
    plan.order = (settled steps links).order ∧ (settled steps links).order.length = steps.length := by
  rw [ofGraph_of_links linked] at planned
  split at planned
  · next full =>
    cases planned
    exact ⟨rfl, full⟩
  · cases planned

/-- A plan that carries out a graph. -/
structure Realizes (steps : List Step) (edges : List Edge) (plan : Plan) : Prop where
  /-- Every step has one place. -/
  order_perm : plan.order.Perm (List.range steps.length)
  /-- An edge names a source and a target, and the source comes first. -/
  edge_order : ∀ edge ∈ edges, ∃ source target, HasId steps source edge.source ∧ HasId steps target edge.target ∧
    Before plan.order source target
  dependencies_length : plan.dependencies.length = steps.length
  /-- A step depends on the sources of the edges into it. -/
  mem_dependencies : ∀ source target,
    source ∈ plan.dependencies.getD target [] ↔ Joins steps edges source target
  dependencies_nodup : ∀ target, (plan.dependencies.getD target []).Nodup
  inbound_length : plan.inbound.length = steps.length
  /-- The inbound entries of a step are the edges into it, in their order, each with its source and mapping. -/
  inbound_edges : ∀ target, List.Forall₂ (fun edge entry => HasId steps entry.1 edge.source ∧ entry.2 = edge.mapping)
    (edges.filter fun edge => HasId steps target edge.target) (plan.inbound.getD target [])
  greedy : Greedy steps (Joins steps edges) steps.length plan.order

theorem inbound_getD (distinct : (steps.map Step.id).Nodup)
    (represent : List.Forall₂ (Represents steps) edges links) (target : Nat) :
    List.Forall₂ (fun edge entry => HasId steps entry.1 edge.source ∧ entry.2 = edge.mapping)
      (edges.filter fun edge => HasId steps target edge.target)
      (((List.range steps.length).map (inboundOf links)).getD target []) := by
  by_cases inside : target < steps.length
  · simpa [List.getD_eq_getElem?_getD, inside] using inboundOf_forall₂ distinct represent target
  · have none : (edges.filter fun edge => HasId steps target edge.target) = [] := by
      simp only [List.filter_eq_nil_iff, decide_eq_true_iff]
      exact fun edge _ named => inside named.lt
    simp [none, List.getD_eq_getElem?_getD, inside]

theorem links_of_ofGraph {plan : Plan} (planned : ofGraph steps edges = .ok plan) :
    ∃ links, edges.mapM (link steps) = .ok links := by
  cases linked : edges.mapM (link steps) with
  | ok links => exact ⟨links, rfl⟩
  | error error => simp [ofGraph, linked, bind, Except.bind] at planned

/-- The plan of a graph carries it out. -/
theorem ofGraph_realizes (distinct : (steps.map Step.id).Nodup) {plan : Plan}
    (planned : ofGraph steps edges = .ok plan) : Realizes steps edges plan := by
  obtain ⟨links, linked⟩ := links_of_ofGraph planned
  have represent := (links_eq_ok_iff distinct).mp linked
  rw [ofGraph_of_links linked] at planned
  split at planned
  · next full =>
    cases planned
    have greedy := settled_greedy distinct represent
    have perm := greedy.perm_range full
    refine ⟨perm, ?_, wires_length, mem_wires distinct represent, wires_nodup, by simp,
      inbound_getD distinct represent, greedy⟩
    intro edge member
    obtain ⟨link, represents⟩ := exists_represents represent member
    have placed : link.target ∈ (settled steps links).order :=
      perm.mem_iff.mpr (List.mem_range.mpr represents.target.lt)
    exact ⟨link.source, link.target, represents.source, represents.target,
      greedy.before_of_needs placed ⟨edge, member, represents.source, represents.target⟩⟩
  · cases planned

/-- Graphs whose edges join the same steps are planned in the same order. -/
theorem ofGraph_order_congr (distinct : (steps.map Step.id).Nodup) {others : List Edge} {moreLinks : List Link}
    (represent : List.Forall₂ (Represents steps) edges links)
    (representToo : List.Forall₂ (Represents steps) others moreLinks)
    (alike : Joins steps others = Joins steps edges) :
    (settled steps moreLinks).order = (settled steps links).order := by
  have greedy := settled_greedy distinct representToo
  have stuck := settled_stuck distinct representToo
  rw [alike] at greedy stuck
  exact greedy.unique_of_stuck (settled_greedy distinct represent) stuck (settled_stuck distinct represent)

theorem joins_congr {others : List Edge} (same : ∀ edge, edge ∈ others ↔ edge ∈ edges) :
    Joins steps others = Joins steps edges := by
  funext source target
  simp only [Joins, same]

/-- The plan of a graph is a greedy order along its edges, with the sources and the inbound edges of every step. The
order stays the same when the edges are permuted or repeated. -/
theorem graph_plan_realizes (scenario : Scenario) (steps : List Step) (edges : List Edge) (plan : Plan)
    (flow : scenario.flow = .graph steps edges) (distinct : (steps.map Step.id).Nodup)
    (planned : scenario.plan = .ok plan) :
    Realizes steps edges plan ∧ ∀ others : List Edge, (∀ edge, edge ∈ others ↔ edge ∈ edges) →
      ∃ other, { scenario with flow := .graph steps others }.plan = .ok other ∧ other.order = plan.order := by
  simp only [Scenario.plan, flow] at planned
  refine ⟨ofGraph_realizes distinct planned, fun others same => ?_⟩
  obtain ⟨links, linked⟩ := links_of_ofGraph planned
  have represent := (links_eq_ok_iff distinct).mp linked
  have known : ∀ edge ∈ others, edge.source ∈ steps.map Step.id ∧ edge.target ∈ steps.map Step.id := by
    intro edge member
    obtain ⟨link, represents⟩ := exists_represents represent ((same edge).mp member)
    exact ⟨exists_hasId_iff.mp ⟨_, represents.source⟩, exists_hasId_iff.mp ⟨_, represents.target⟩⟩
  obtain ⟨moreLinks, linkedToo⟩ := links_of_known distinct known
  have representToo := (links_eq_ok_iff distinct).mp linkedToo
  have order := ofGraph_order_congr distinct represent representToo (joins_congr same)
  obtain ⟨settles, full⟩ := full_of_ofGraph linked planned
  obtain ⟨other, plannedToo, settlesToo⟩ := ofGraph_of_full linkedToo (order ▸ full)
  exact ⟨other, plannedToo, settlesToo.trans (order.trans settles.symm)⟩

/-- A step that only sends a request. -/
def plainStep (id : String) (sortOrder : Nat) : Step :=
  { id, name := id, method := .get, url := "http://host/" ++ id, sortOrder }

/-- Four steps of a graph whose ranks run against most of its edges. -/
def crossedSteps : List Step := [plainStep "a" 4, plainStep "b" 2, plainStep "c" 1, plainStep "d" 0]

/-- The edges of the graph; one of them stands twice. -/
def crossedEdges : List Edge := [⟨"a", "c", [("token", "key")]⟩, ⟨"a", "b", []⟩, ⟨"a", "c", []⟩, ⟨"c", "d", []⟩]

/-- The plan of the graph. -/
def crossedPlan : Plan :=
  ⟨[0, 2, 3, 1], [[], [0], [0], [2]], [[], [(0, [])], [(0, [("token", "key")]), (0, [])], [(2, [])]]⟩

/-- A scenario over the graph. -/
def crossed : Scenario := { id := "crossed", name := "crossed", flow := .graph crossedSteps crossedEdges }

theorem crossed_realizes :
    crossed.flow = .graph crossedSteps crossedEdges ∧ (crossedSteps.map Step.id).Nodup ∧
      crossed.plan = .ok crossedPlan ∧ Realizes crossedSteps crossedEdges crossedPlan ∧
      ∃ other, { crossed with flow := .graph crossedSteps crossedEdges.reverse }.plan = .ok other ∧
        other.order = [0, 2, 3, 1] := by
  obtain ⟨realizes, stable⟩ := graph_plan_realizes crossed crossedSteps crossedEdges crossedPlan rfl (by decide) rfl
  exact ⟨rfl, by decide, rfl, realizes, stable crossedEdges.reverse fun edge => List.mem_reverse⟩

end Runbook.Plan

import Runbook.Scenario.Capture

/-!
Plans: the order in which the steps of a scenario run, and for each step the steps it depends on and the names it takes
over from them. A graph is planned by placing, again and again, the first step in sort order that waits for no other.
-/

namespace Runbook

open Runbook.Text

/-- The order and wiring of a scenario; steps are named by their index. -/
structure Plan where
  order : List Nat
  /-- The steps that each step depends on directly. -/
  dependencies : List (List Nat)
  /-- The source and mapping of each edge into a step. -/
  inbound : List (List (Nat × Dict String))
deriving DecidableEq, Repr

namespace Plan

/-- An edge between indices. -/
structure Link where
  source : Nat
  target : Nat
  mapping : Dict String
deriving DecidableEq, Repr

/-- The place of a step in the order of choice: its sort order, then its index. -/
abbrev Rank := Nat × Nat

/-- A rank comes before another one or is the same. -/
def Rank.before (first second : Rank) : Bool :=
  first.1 < second.1 || (first.1 == second.1 && first.2 ≤ second.2)

/-- The rank of a step of a list. -/
def rank (steps : List Step) (index : Nat) : Rank :=
  ((steps[index]?.map Step.sortOrder).getD 0, index)

/-- The index of the last step with an id. -/
def indexOf? (steps : List Step) (id : String) : Option Nat :=
  (List.range steps.length).reverse.find? fun index => (steps[index]?.map Step.id) == some id

/-- The edge between the steps that it names. -/
def link (steps : List Step) (edge : Edge) : Except ScenarioError Link :=
  match indexOf? steps edge.source, indexOf? steps edge.target with
  | none, _ => .error (.general (.unknownStep edge.source))
  | _, none => .error (.general (.unknownStep edge.target))
  | some source, some target => .ok ⟨source, target, edge.mapping⟩

/-- A list without repetitions, each element at its first place. -/
def firsts (elements : List Nat) : List Nat :=
  elements.foldl (fun kept element => if kept.contains element then kept else kept ++ [element]) []

/-- The sources of the links into a step, each once. -/
def sourcesOf (links : List Link) (target : Nat) : List Nat :=
  firsts ((links.filter (·.target == target)).map Link.source)

/-- The sources and mappings of the links into a step. -/
def inboundOf (links : List Link) (target : Nat) : List (Nat × Dict String) :=
  (links.filter (·.target == target)).map fun link => (link.source, link.mapping)

/-- The steps that depend on a step directly. -/
def dependentsOf (dependencies : List (List Nat)) (source : Nat) : List Nat :=
  (List.range dependencies.length).filter fun target => (dependencies.getD target []).contains source

/-- A rank put into a list sorted by rank. -/
def insertRank (rank : Rank) : List Rank → List Rank
  | [] => [rank]
  | other :: rest => if rank.before other then rank :: other :: rest else other :: insertRank rank rest

/-- A planning in progress. -/
structure Frontier where
  /-- For each step the number of steps it still waits for. -/
  waiting : List Nat
  /-- The steps that wait for none and are not placed yet, sorted by rank. -/
  ready : List Rank
  /-- The steps placed so far. -/
  order : List Nat
deriving DecidableEq, Repr

namespace Frontier

/-- The planning before any step is placed. -/
def start (steps : List Step) (dependencies : List (List Nat)) : Frontier :=
  let waiting := dependencies.map List.length
  let free := (List.range dependencies.length).filter fun index => waiting.getD index 0 == 0
  { waiting
    ready := free.foldl (fun ready index => insertRank (rank steps index) ready) []
    order := [] }

/-- One dependent waits for one step fewer, and is ready if it waits for none. -/
def release (steps : List Step) (frontier : Frontier) (dependent : Nat) : Frontier :=
  let left := frontier.waiting.getD dependent 0 - 1
  { frontier with
    waiting := frontier.waiting.set dependent left
    ready := if left = 0 then insertRank (rank steps dependent) frontier.ready else frontier.ready }

/-- The planning after the first ready step is placed. -/
def place (steps : List Step) (dependencies : List (List Nat)) (frontier : Frontier) : Option Frontier :=
  match frontier.ready with
  | [] => none
  | (_, index) :: rest =>
    let placed : Frontier := { frontier with ready := rest, order := frontier.order ++ [index] }
    some ((dependentsOf dependencies index).foldl (release steps) placed)

/-- The planning after at most the given number of placements. -/
def run (steps : List Step) (dependencies : List (List Nat)) : Nat → Frontier → Frontier
  | 0, frontier => frontier
  | rounds + 1, frontier =>
    match frontier.place steps dependencies with
    | some next => run steps dependencies rounds next
    | none => frontier

end Frontier

/-- The plan of a graph. The steps that cannot be placed lie on a cycle or behind one. -/
def ofGraph (steps : List Step) (edges : List Edge) : Except ScenarioError Plan := do
  let links ← edges.mapM (link steps)
  let indices := List.range steps.length
  let dependencies := indices.map (sourcesOf links)
  let order := ((Frontier.start steps dependencies).run steps dependencies steps.length).order
  if order.length = steps.length then
    return { order, dependencies, inbound := indices.map (inboundOf links) }
  else
    let left := indices.filter (!order.contains ·)
    throw (.general (.cycle (left.filterMap fun index => steps[index]?.map Step.id)))

/-- The step before an index in an order. -/
def previous? (order : List Nat) (index : Nat) : Option Nat :=
  match order with
  | first :: second :: rest => if second == index then some first else previous? (second :: rest) index
  | _ => none

/-- The plan of a script: by sort order, each step after the one before. -/
def ofScript (steps : List Step) : Plan :=
  let indices := List.range steps.length
  let order := indices.mergeSort fun first second => (rank steps first).before (rank steps second)
  { order
    dependencies := indices.map fun index => (previous? order index).toList
    inbound := indices.map fun index => (previous? order index).toList.map fun source => (source, []) }

end Plan

namespace Scenario

/-- The plan of a scenario. -/
def plan (scenario : Scenario) : Except ScenarioError Plan :=
  match scenario.flow with
  | .script steps => .ok (Plan.ofScript steps)
  | .graph steps edges => Plan.ofGraph steps edges

/-- The check of a step: it has an id that no earlier step has, a URL, and well-formed captures. -/
def checkStep (seen : List String) (step : Step) : Except ScenarioError Unit := do
  if (trim step.id.toList).isEmpty then throw (.inStep step.name (.malformed "step id is empty"))
  if seen.contains step.id then throw (.inStep step.name (.duplicateStepId step.id))
  if (trim step.url.toList).isEmpty then throw (.inStep step.name .emptyUrl)
  step.captures.forM fun capture =>
    (Capture.check capture.name capture.path).mapError (ScenarioError.inStep step.name)

/-- The check of all steps after those with the given ids. -/
def checkSteps (seen : List String) : List Step → Except ScenarioError Unit
  | [] => .ok ()
  | step :: rest => do
    checkStep seen step
    checkSteps (step.id :: seen) rest

/-- The plan of a scenario that can be run: it has steps, and each of them passes its check. -/
def validate (scenario : Scenario) : Except ScenarioError Plan := do
  if scenario.steps.isEmpty then throw (.general .noSteps)
  checkSteps [] scenario.steps
  scenario.plan

end Scenario
end Runbook

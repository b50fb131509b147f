import Runbook.Document.Decode
import Runbook.Plan
import Runbook.Scenario.Slug
import Runbook.Yaml.Readable

/-!
The scenario of a graph document: steps joined by edges, written in YAML or JSON. A document that was read is also
valid, so it has a plan.
-/

namespace Runbook.Graph

open Readable Document

/-- A step as a graph document writes it. What it leaves out has a default that depends on the other fields. -/
structure Draft where
  id : String
  name : Option String
  method : String
  url : String
  headers : Dict String
  /-- A text, or a value whose JSON text is the body. -/
  body : Option Json
  captures : List Capture
  asserts : List String
  sortOrder : Option Nat
  position : Option Position
  options : StepOptions

/-- A scenario as a graph document writes it. -/
structure Outline where
  id : Option String
  name : String
  steps : List Draft
  edges : List Edge

variable {ν : Type} [Readable ν]

/-- A step of a graph document. -/
def draft? (node : ν) : Option Draft := do
  let record ← record? ["id", "name", "method", "url", "headers", "body", "captures", "asserts", "sort_order",
    "position", "options"] node
  return {
    id := ← record.need 0 text?
    name := ← record.nullable 1 text?
    method := ← record.need 2 text?
    url := ← record.need 3 text?
    headers := ← record.orElse 4 [] texts?
    body := ← record.nullable 5 json?
    captures := ← record.orElse 6 [] (listOf? capture?)
    asserts := ← record.orElse 7 [] (listOf? text?)
    sortOrder := ← record.nullable 8 (natBelow? (wordBound 32))
    position := ← record.nullable 9 position?
    options := ← record.orElse 10 {} stepOptions? }

/-- An edge of a graph document; its ends have a long and a short name. -/
def edge? (node : ν) : Option Edge := do
  let parts ← parts? node
  let record ← parts.record? [["source", "source_step_id"], ["target", "target_step_id"], ["variable_mapping"]]
  return {
    source := ← record.need 0 text?
    target := ← record.need 1 text?
    mapping := ← record.orElse 2 [] texts? }

/-- A graph document as written. -/
def outline? (node : ν) : Option Outline := do
  let record ← record? ["id", "name", "steps", "edges"] node
  return {
    id := ← record.nullable 0 text?
    name := ← record.need 1 text?
    steps := ← record.need 2 (listOf? draft?)
    edges := ← record.orElse 3 [] (listOf? edge?) }

/-- The body that a value stands for: a text as it is, nothing for null, and any other value as JSON text. -/
def bodyText? : Json → Option String
  | .null => none
  | .string text => some text
  | other => some other.compact

namespace Draft

/-- The assertion of a line. -/
def assertion (label line : String) : Except ScenarioError Assertion :=
  (Assertion.parse line).mapError fun fault =>
    .inStep label (.invalidAssertion (line ++ ": " ++ fault.message))

/-- The step that a draft makes at its place in the document. -/
def step (draft : Draft) (index : Nat) : Except ScenarioError Step := do
  let label := draft.name.getD draft.id
  let some method := Method.read? draft.method | throw (.inStep label (.invalidMethod draft.method))
  let asserts ← draft.asserts.mapM (assertion label)
  return {
    id := draft.id
    name := label
    method
    url := draft.url
    headers := draft.headers
    body := draft.body.bind bodyText?
    captures := draft.captures
    asserts
    sortOrder := draft.sortOrder.getD index
    position := draft.position
    options := draft.options }

end Draft

/-- The scenario of an outline. -/
def ofOutline (outline : Outline) : Except ScenarioError Scenario := do
  let steps ← outline.steps.zipIdx.mapM fun (draft, index) => draft.step index
  let scenario : Scenario := {
    id := outline.id.getD (Slug.ofName outline.name)
    name := outline.name
    flow := .graph steps outline.edges }
  let _ ← scenario.validate
  return scenario

/-- The scenario of a text that holds a graph document. -/
def parse (text : String) : Except ScenarioError Scenario :=
  match (Yaml.read? text).bind outline? with
  | some outline => ofOutline outline
  | none => .error (.general (.malformed "invalid graph document"))

end Runbook.Graph

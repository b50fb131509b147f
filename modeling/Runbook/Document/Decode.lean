import Runbook.Assertion.Reader
import Runbook.Document.Readable
import Runbook.Progress.Event
import Runbook.Time.Reader

/-!
Reading the records of the library from documents. A document that does not fit gives nothing.
-/

namespace Runbook.Document

open Readable

variable {ν : Type} [Readable ν]

/-- The first number that a 16-bit, 32-bit or 64-bit word cannot hold. -/
def wordBound (bits : Nat) : Nat := Nat.pow 2 bits

/-- A dictionary of texts. -/
def texts? (node : ν) : Option (Dict String) := dictOf? text? node

/-- An environment. -/
def environment? (node : ν) : Option Environment := do
  let record ← record? ["name", "base_url", "variables", "headers", "is_active"] node
  return {
    name := ← record.need 0 text?
    baseUrl := ← record.nullable 1 text?
    bindings := ← record.orElse 2 [] texts?
    headers := ← record.orElse 3 [] texts?
    isActive := ← record.orElse 4 false bool? }

/-- A capture. -/
def capture? (node : ν) : Option Capture := do
  let record ← record? ["name", "path"] node
  return { name := ← record.need 0 text?, path := ← record.need 1 text? }

/-- The options of a step. -/
def stepOptions? (node : ν) : Option StepOptions := do
  let record ← record? ["timeout_ms", "retry", "retry_wait_ms"] node
  return {
    timeout := ← record.nullable 0 (natBelow? (wordBound 64))
    retry := ← record.orElse 1 0 (natBelow? (wordBound 32))
    retryWait := ← record.orElse 2 0 (natBelow? (wordBound 64)) }

/-- A position. -/
def position? (node : ν) : Option Position := do
  let record ← record? ["x", "y"] node
  return { x := ← record.need 0 double?, y := ← record.need 1 double? }

/-- An assertion, as the line it is written in. -/
def assertion? (node : ν) : Option Assertion := do
  (Assertion.parse (← text? node)).toOption

/-- A method, in capital letters. -/
def method? (node : ν) : Option Method := do Method.ofName? (← name? node)

/-- A step. -/
def step? (node : ν) : Option Step := do
  let record ← record? ["id", "name", "method", "url", "headers", "body", "captures", "asserts", "sort_order",
    "position", "options"] node
  return {
    id := ← record.need 0 text?
    name := ← record.need 1 text?
    method := ← record.need 2 method?
    url := ← record.need 3 text?
    headers := ← record.orElse 4 [] texts?
    body := ← record.nullable 5 text?
    captures := ← record.orElse 6 [] (listOf? capture?)
    asserts := ← record.orElse 7 [] (listOf? assertion?)
    sortOrder := ← record.orElse 8 0 (natBelow? (wordBound 32))
    position := ← record.nullable 9 position?
    options := ← record.orElse 10 {} stepOptions? }

/-- An edge. -/
def edge? (node : ν) : Option Edge := do
  let record ← record? ["source_step_id", "target_step_id", "variable_mapping"] node
  return {
    source := ← record.need 0 text?
    target := ← record.need 1 text?
    mapping := ← record.orElse 2 [] texts? }

/-- The shape of a scenario. -/
def flow? (node : ν) : Option Flow := do
  let (tag, parts) ← tagged? "type" node
  match tag with
  | "script" =>
    let record ← parts.record? [["steps"]]
    return .script (← record.need 0 (listOf? step?))
  | "graph" =>
    let record ← parts.record? [["steps"], ["edges"]]
    return .graph (← record.need 0 (listOf? step?)) (← record.need 1 (listOf? edge?))
  | _ => none

/-- A scenario. -/
def scenario? (node : ν) : Option Scenario := do
  let record ← record? ["id", "name", "source", "kind"] node
  return {
    id := ← record.need 0 text?
    name := ← record.need 1 text?
    source := ← record.nullable 2 text?
    flow := ← record.need 3 flow? }

/-- The status of a step. -/
def stepStatus? (node : ν) : Option StepStatus := do StepStatus.ofName? (← name? node)

/-- The status of a run. -/
def runStatus? (node : ν) : Option RunStatus := do RunStatus.ofName? (← name? node)

/-- What is kept of a request. -/
def requestSnapshot? (node : ν) : Option RequestSnapshot := do
  let record ← record? ["method", "url", "headers", "body"] node
  return {
    method := ← record.need 0 text?
    url := ← record.need 1 text?
    headers := ← record.need 2 texts?
    body := ← record.optional 3 text? }

/-- What is kept of a response. -/
def responseSnapshot? (node : ν) : Option ResponseSnapshot := do
  let record ← record? ["status", "headers", "body"] node
  return {
    status := ← record.need 0 (natBelow? (wordBound 16))
    headers := ← record.need 1 texts?
    body := ← record.need 2 text? }

/-- The result of a step. -/
def stepResult? (node : ν) : Option StepResult := do
  let record ← record? ["step_id", "name", "status", "request_snapshot", "response_snapshot", "duration_ms",
    "assertion_failures", "error", "captured"] node
  return {
    stepId := ← record.need 0 text?
    name := ← record.need 1 text?
    status := ← record.need 2 stepStatus?
    request := ← record.optional 3 requestSnapshot?
    response := ← record.optional 4 responseSnapshot?
    millis := ← record.need 5 (natBelow? (wordBound 64))
    failures := ← record.need 6 (listOf? text?)
    error := ← record.optional 7 text?
    captured := ← record.orElse 8 [] (dictOf? json?) }

/-- An instant. -/
def instant? (node : ν) : Option Time.Instant := do Time.Instant.read? (← text? node).toList

/-- A run. -/
def run? (node : ν) : Option Run := do
  let record ← record? ["id", "scenario_id", "scenario_name", "environment", "status", "started_at", "finished_at",
    "step_results", "canceled"] node
  return {
    id := ← record.need 0 text?
    scenarioId := ← record.need 1 text?
    scenarioName := ← record.need 2 text?
    environment := ← record.need 3 text?
    status := ← record.need 4 runStatus?
    startedAt := ← record.optional 5 instant?
    finishedAt := ← record.optional 6 instant?
    results := ← record.need 7 (listOf? stepResult?)
    canceled := ← record.orElse 8 false bool? }

/-- The names of the fields of a step event. -/
def stepEventFields : List String :=
  ["run_id", "scenario", "step_id", "name", "status", "duration_ms", "details"]

/-- A step event out of its parts. -/
def stepEventOf? (parts : Parts ν) : Option StepEvent := do
  let record ← parts.record? (stepEventFields.map fun name => [name])
  return {
    runId := ← record.need 0 text?
    scenario := ← record.need 1 text?
    stepId := ← record.need 2 text?
    name := ← record.need 3 text?
    status := ← record.need 4 stepStatus?
    millis := ← record.optional 5 (natBelow? (wordBound 64))
    details := ← record.orElse 6 [] (listOf? text?) }

/-- A step event. -/
def stepEvent? (node : ν) : Option StepEvent := do stepEventOf? (← parts? node)

/-- A progress event. -/
def progressEvent? (node : ν) : Option ProgressEvent := do
  let (tag, parts) ← tagged? "event" node
  match tag with
  | "step" => return .step (← stepEventOf? parts)
  | "done" =>
    let record ← parts.record? [["run_id"], ["scenario"], ["status"], ["canceled"]]
    return .done (← record.need 0 text?) (← record.need 1 text?) (← record.need 2 runStatus?)
      (← record.need 3 bool?)
  | _ => none

end Runbook.Document

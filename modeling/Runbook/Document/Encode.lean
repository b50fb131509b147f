import Runbook.Json.Basic
import Runbook.Progress.Event

/-!
The records of the library as JSON values, with fields in declared order.
-/

namespace Runbook

/-- A dictionary of texts as an object. -/
def Json.ofTexts (texts : Dict String) : Json := .object (texts.mapValues Json.string)

/-- A list of texts as an array. -/
def Json.ofTextList (texts : List String) : Json := .array (texts.map Json.string)

/-- An environment as JSON. -/
def Environment.toJson (environment : Environment) : Json :=
  .object [("name", .string environment.name), ("base_url", .ofText? environment.baseUrl),
    ("variables", .ofTexts environment.bindings), ("headers", .ofTexts environment.headers),
    ("is_active", .bool environment.isActive)]

/-- A capture as JSON. -/
def Capture.toJson (capture : Capture) : Json :=
  .object [("name", .string capture.name), ("path", .string capture.path)]

/-- The options of a step as JSON. -/
def StepOptions.toJson (options : StepOptions) : Json :=
  .object [("timeout_ms", .ofNat? options.timeout), ("retry", .int options.retry),
    ("retry_wait_ms", .int options.retryWait)]

/-- A position as JSON. -/
def Position.toJson (position : Position) : Json :=
  .object [("x", .ofDouble position.x), ("y", .ofDouble position.y)]

/-- A step as JSON. -/
def Step.toJson (step : Step) : Json :=
  .object [("id", .string step.id), ("name", .string step.name), ("method", .string step.method.name),
    ("url", .string step.url), ("headers", .ofTexts step.headers), ("body", .ofText? step.body),
    ("captures", .array (step.captures.map Capture.toJson)),
    ("asserts", .ofTextList (step.asserts.map Assertion.source)), ("sort_order", .int step.sortOrder),
    ("position", (step.position.map Position.toJson).getD .null), ("options", step.options.toJson)]

/-- An edge as JSON. -/
def Edge.toJson (edge : Edge) : Json :=
  .object [("source_step_id", .string edge.source), ("target_step_id", .string edge.target),
    ("variable_mapping", .ofTexts edge.mapping)]

/-- The shape of a scenario as JSON. -/
def Flow.toJson : Flow → Json
  | .script steps => .object [("type", .string "script"), ("steps", .array (steps.map Step.toJson))]
  | .graph steps edges =>
    .object [("type", .string "graph"), ("steps", .array (steps.map Step.toJson)),
      ("edges", .array (edges.map Edge.toJson))]

/-- A scenario as JSON. -/
def Scenario.toJson (scenario : Scenario) : Json :=
  .object [("id", .string scenario.id), ("name", .string scenario.name), ("source", .ofText? scenario.source),
    ("kind", scenario.flow.toJson)]

/-- What is kept of a request, as JSON. -/
def RequestSnapshot.toJson (snapshot : RequestSnapshot) : Json :=
  .object [("method", .string snapshot.method), ("url", .string snapshot.url),
    ("headers", .ofTexts snapshot.headers), ("body", .ofText? snapshot.body)]

/-- What is kept of a response, as JSON. -/
def ResponseSnapshot.toJson (snapshot : ResponseSnapshot) : Json :=
  .object [("status", .int snapshot.status), ("headers", .ofTexts snapshot.headers), ("body", .string snapshot.body)]

/-- The result of a step as JSON. -/
def StepResult.toJson (result : StepResult) : Json :=
  .object [("step_id", .string result.stepId), ("name", .string result.name), ("status", .string result.status.name),
    ("request_snapshot", (result.request.map RequestSnapshot.toJson).getD .null),
    ("response_snapshot", (result.response.map ResponseSnapshot.toJson).getD .null),
    ("duration_ms", .int result.millis), ("assertion_failures", .ofTextList result.failures),
    ("error", .ofText? result.error), ("captured", .object result.captured)]

/-- An instant that may be unknown, as JSON. -/
def Json.ofInstant? (instant : Option Time.Instant) : Json := .ofText? (instant.map Time.Instant.text)

/-- A run as JSON. -/
def Run.toJson (run : Run) : Json :=
  .object [("id", .string run.id), ("scenario_id", .string run.scenarioId),
    ("scenario_name", .string run.scenarioName), ("environment", .string run.environment),
    ("status", .string run.status.name), ("started_at", .ofInstant? run.startedAt),
    ("finished_at", .ofInstant? run.finishedAt), ("step_results", .array (run.results.map StepResult.toJson)),
    ("canceled", .bool run.canceled)]

/-- The fields of a step event. -/
def StepEvent.toFields (event : StepEvent) : List (String × Json) :=
  [("run_id", .string event.runId), ("scenario", .string event.scenario), ("step_id", .string event.stepId),
    ("name", .string event.name), ("status", .string event.status.name), ("duration_ms", .ofNat? event.millis),
    ("details", .ofTextList event.details)]

/-- A step event as JSON. -/
def StepEvent.toJson (event : StepEvent) : Json := .object event.toFields

/-- A progress event as JSON. -/
def ProgressEvent.toJson : ProgressEvent → Json
  | .step event => .object (("event", .string "step") :: event.toFields)
  | .done runId scenario status canceled =>
    .object [("event", .string "done"), ("run_id", .string runId), ("scenario", .string scenario),
      ("status", .string status.name), ("canceled", .bool canceled)]

end Runbook

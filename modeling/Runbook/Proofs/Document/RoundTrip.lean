import Runbook.Proofs.Document.Parts

/-!
The records of the library as documents: what is written of a record is read as that record, with its fields as they are
written or in any other order.
-/

namespace Runbook

open Document Json

section Arranged

variable {arrange : Json → Json} (arranges : Arranges arrange)

include arranges

section Scenario

theorem Capture.read_arrange (capture : Capture) : capture? (arrange capture.toJson) = some capture := by
  apply bind_eq_some (record?_arrange arranges (by rfl) (by decide))
  apply bind_eq_some (need_eq rfl (text?_arrange arranges capture.name))
  apply bind_eq_some (need_eq rfl (text?_arrange arranges capture.path))
  rfl

theorem StepOptions.Fits.read_arrange {options : StepOptions} (fits : options.Fits) :
    stepOptions? (arrange options.toJson) = some options := by
  apply bind_eq_some (record?_arrange arranges (by rfl) (by decide))
  apply bind_eq_some (nullable_eq rfl (optionalNat_arrange arranges fits.timeout))
  apply bind_eq_some (orElse_eq 0 rfl (natBelow?_arrange arranges fits.retry))
  apply bind_eq_some (orElse_eq 0 rfl (natBelow?_arrange arranges fits.retryWait))
  rfl

theorem Position.Fits.read_arrange {position : Position} (fits : position.Fits) :
    position? (arrange position.toJson) = some position := by
  apply bind_eq_some (record?_arrange arranges (by rfl) (by decide))
  apply bind_eq_some (need_eq rfl (double?_arrange arranges fits.x))
  apply bind_eq_some (need_eq rfl (double?_arrange arranges fits.y))
  rfl

/-- An assertion is read from the line that it keeps. -/
theorem Assertion.read_arrange {line : String} {assertion : Assertion} (read : Assertion.parse line = .ok assertion) :
    assertion? (arrange (.string assertion.source)) = some assertion := by
  rw [arranges.string]
  exact Assertion.assertion?_string (Assertion.parse_source read)

theorem Method.read_arrange (method : Method) : method? (arrange (.string method.name)) = some method :=
  bind_eq_some (name?_arrange arranges method.name) method.ofName?_name

theorem Step.Fits.read_arrange {step : Step} (fits : step.Fits) : step? (arrange step.toJson) = some step := by
  have captures : listOf? capture? (arrange (.array (step.captures.map Capture.toJson))) = some step.captures :=
    listOf?_arrange arranges fun capture _ => capture.read_arrange arranges
  have asserts :
      listOf? assertion? (arrange (.ofTextList (step.asserts.map Assertion.source))) = some step.asserts := by
    rw [Json.ofTextList, List.map_map]
    apply listOf?_arrange arranges
    intro assertion member
    obtain ⟨line, read⟩ := fits.asserts assertion member
    exact Assertion.read_arrange arranges read
  have position : ReadsOptional position? (arrange ((step.position.map Position.toJson).getD .null)) step.position := by
    apply optional_arrange arranges
    intro position member
    exact ⟨isNull_arrange_object arranges (by simp), (fits.position position member).read_arrange arranges⟩
  apply bind_eq_some (record?_arrange arranges (by rfl) (by decide))
  apply bind_eq_some (need_eq rfl (text?_arrange arranges step.id))
  apply bind_eq_some (need_eq rfl (text?_arrange arranges step.name))
  apply bind_eq_some (need_eq rfl (step.method.read_arrange arranges))
  apply bind_eq_some (need_eq rfl (text?_arrange arranges step.url))
  apply bind_eq_some (orElse_eq [] rfl (texts?_arrange arranges fits.headers))
  apply bind_eq_some (nullable_eq rfl (optionalText_arrange arranges step.body))
  apply bind_eq_some (orElse_eq [] rfl captures)
  apply bind_eq_some (orElse_eq [] rfl asserts)
  apply bind_eq_some (orElse_eq 0 rfl (natBelow?_arrange arranges fits.sortOrder))
  apply bind_eq_some (nullable_eq rfl position)
  apply bind_eq_some (orElse_eq {} rfl (fits.options.read_arrange arranges))
  rfl

theorem Edge.Fits.read_arrange {edge : Edge} (fits : edge.Fits) : edge? (arrange edge.toJson) = some edge := by
  apply bind_eq_some (record?_arrange arranges (by rfl) (by decide))
  apply bind_eq_some (need_eq rfl (text?_arrange arranges edge.source))
  apply bind_eq_some (need_eq rfl (text?_arrange arranges edge.target))
  apply bind_eq_some (orElse_eq [] rfl (texts?_arrange arranges fits))
  rfl

theorem Flow.Fits.read_arrange {flow : Flow} (fits : flow.Fits) : flow? (arrange flow.toJson) = some flow := by
  have listed {steps : List Step} (fit : ∀ step ∈ steps, step.Fits) :
      listOf? step? (arrange (.array (steps.map Step.toJson))) = some steps :=
    listOf?_arrange arranges fun step member => (fit step member).read_arrange arranges
  cases flow with
  | script steps =>
    obtain ⟨others, tagged, offers⟩ := tagged?_arrange "type" "script"
      [("steps", .array (steps.map Step.toJson))] arranges (by simp)
    apply bind_eq_some tagged
    apply bind_eq_some offers.record?
    apply bind_eq_some (need_eq rfl (listed fits))
    rfl
  | graph steps edges =>
    have joined : listOf? edge? (arrange (.array (edges.map Edge.toJson))) = some edges :=
      listOf?_arrange arranges fun edge member => Edge.Fits.read_arrange arranges (fits.2 edge member)
    obtain ⟨others, tagged, offers⟩ := tagged?_arrange "type" "graph"
      [("steps", .array (steps.map Step.toJson)), ("edges", .array (edges.map Edge.toJson))] arranges (by simp)
    apply bind_eq_some tagged
    apply bind_eq_some offers.record?
    apply bind_eq_some (need_eq rfl (listed fits.1))
    apply bind_eq_some (need_eq rfl joined)
    rfl

theorem Scenario.Fits.read_arrange {scenario : Scenario} (fits : scenario.Fits) :
    scenario? (arrange scenario.toJson) = some scenario := by
  apply bind_eq_some (record?_arrange arranges (by rfl) (by decide))
  apply bind_eq_some (need_eq rfl (text?_arrange arranges scenario.id))
  apply bind_eq_some (need_eq rfl (text?_arrange arranges scenario.name))
  apply bind_eq_some (nullable_eq rfl (optionalText_arrange arranges scenario.source))
  apply bind_eq_some (need_eq rfl (Flow.Fits.read_arrange arranges fits))
  rfl

end Scenario

section Run

/-- The name of the status of a step is a text. -/
theorem StepStatus.read_arrange (status : StepStatus) : stepStatus? (arrange (.string status.name)) = some status :=
  bind_eq_some (name?_arrange arranges status.name) status.ofName?_name

theorem RunStatus.read_arrange (status : RunStatus) : runStatus? (arrange (.string status.name)) = some status :=
  bind_eq_some (name?_arrange arranges status.name) status.ofName?_name

theorem RequestSnapshot.Fits.read_arrange {snapshot : RequestSnapshot} (fits : snapshot.Fits) :
    requestSnapshot? (arrange snapshot.toJson) = some snapshot := by
  apply bind_eq_some (record?_arrange arranges (by rfl) (by decide))
  apply bind_eq_some (need_eq rfl (text?_arrange arranges snapshot.method))
  apply bind_eq_some (need_eq rfl (text?_arrange arranges snapshot.url))
  apply bind_eq_some (need_eq rfl (texts?_arrange arranges fits))
  apply bind_eq_some (optional_eq rfl (optionalText_arrange arranges snapshot.body))
  rfl

theorem ResponseSnapshot.Fits.read_arrange {snapshot : ResponseSnapshot} (fits : snapshot.Fits) :
    responseSnapshot? (arrange snapshot.toJson) = some snapshot := by
  apply bind_eq_some (record?_arrange arranges (by rfl) (by decide))
  apply bind_eq_some (need_eq rfl (natBelow?_arrange arranges fits.status))
  apply bind_eq_some (need_eq rfl (texts?_arrange arranges fits.headers))
  apply bind_eq_some (need_eq rfl (text?_arrange arranges snapshot.body))
  rfl

theorem StepResult.Fits.read_arrange {result : StepResult} (fits : result.Fits) :
    stepResult? (arrange result.toJson) = some result := by
  have request : ReadsOptional requestSnapshot?
      (arrange ((result.request.map RequestSnapshot.toJson).getD .null)) result.request := by
    apply optional_arrange arranges
    intro snapshot member
    exact ⟨isNull_arrange_object arranges (by simp), (fits.request snapshot member).read_arrange arranges⟩
  have response : ReadsOptional responseSnapshot?
      (arrange ((result.response.map ResponseSnapshot.toJson).getD .null)) result.response := by
    apply optional_arrange arranges
    intro snapshot member
    exact ⟨isNull_arrange_object arranges (by simp), (fits.response snapshot member).read_arrange arranges⟩
  apply bind_eq_some (record?_arrange arranges (by rfl) (by decide))
  apply bind_eq_some (need_eq rfl (text?_arrange arranges result.stepId))
  apply bind_eq_some (need_eq rfl (text?_arrange arranges result.name))
  apply bind_eq_some (need_eq rfl (result.status.read_arrange arranges))
  apply bind_eq_some (optional_eq rfl request)
  apply bind_eq_some (optional_eq rfl response)
  apply bind_eq_some (need_eq rfl (natBelow?_arrange arranges fits.millis))
  apply bind_eq_some (need_eq rfl (textList?_arrange arranges result.failures))
  apply bind_eq_some (optional_eq rfl (optionalText_arrange arranges result.error))
  apply bind_eq_some (orElse_eq [] rfl (jsonDict?_arrange arranges fits.captured fits.values))
  rfl

theorem Time.Instant.IsDated.read_arrange {instant : Time.Instant} (dated : instant.IsDated) :
    instant? (arrange (.string instant.text)) = some instant :=
  bind_eq_some (text?_arrange arranges instant.text) (Time.Instant.read?_text dated)

theorem optionalInstant_arrange {instant : Option Time.Instant} (dated : ∀ held ∈ instant, held.IsDated) :
    ReadsOptional instant? (arrange (.ofInstant? instant)) instant := by
  have written : Json.ofInstant? instant = (instant.map fun held => Json.string held.text).getD .null := by
    cases instant <;> rfl
  rw [written]
  apply optional_arrange arranges
  intro held member
  refine ⟨?_, (dated held member).read_arrange arranges⟩
  rw [arranges.string]
  rfl

theorem Run.Fits.read_arrange {run : Run} (fits : run.Fits) : run? (arrange run.toJson) = some run := by
  have results : listOf? stepResult? (arrange (.array (run.results.map StepResult.toJson))) = some run.results :=
    listOf?_arrange arranges fun result member => (fits.results result member).read_arrange arranges
  apply bind_eq_some (record?_arrange arranges (by rfl) (by decide))
  apply bind_eq_some (need_eq rfl (text?_arrange arranges run.id))
  apply bind_eq_some (need_eq rfl (text?_arrange arranges run.scenarioId))
  apply bind_eq_some (need_eq rfl (text?_arrange arranges run.scenarioName))
  apply bind_eq_some (need_eq rfl (text?_arrange arranges run.environment))
  apply bind_eq_some (need_eq rfl (run.status.read_arrange arranges))
  apply bind_eq_some (optional_eq rfl (optionalInstant_arrange arranges fits.startedAt))
  apply bind_eq_some (optional_eq rfl (optionalInstant_arrange arranges fits.finishedAt))
  apply bind_eq_some (need_eq rfl results)
  apply bind_eq_some (orElse_eq false rfl (bool?_arrange arranges run.canceled))
  rfl

theorem HistoryEntry.Fits.read_arrange {entry : HistoryEntry} (fits : entry.Fits) :
    historyEntry? (arrange entry.toJson) = some entry := by
  apply bind_eq_some (record?_arrange arranges (by rfl) (by decide))
  apply bind_eq_some (need_eq rfl (int64?_arrange arranges fits.id.1 fits.id.2))
  apply bind_eq_some (need_eq rfl (fits.timestamp.read_arrange arranges))
  apply bind_eq_some (nullable_eq rfl (optionalText_arrange arranges entry.project))
  apply bind_eq_some (need_eq rfl (text?_arrange arranges entry.method))
  apply bind_eq_some (need_eq rfl (text?_arrange arranges entry.url))
  apply bind_eq_some (need_eq rfl (texts?_arrange arranges fits.requestHeaders))
  apply bind_eq_some (optional_eq rfl (optionalText_arrange arranges entry.requestBody))
  apply bind_eq_some (optional_eq rfl (optionalNat_arrange arranges fits.status))
  apply bind_eq_some (need_eq rfl (texts?_arrange arranges fits.responseHeaders))
  apply bind_eq_some (optional_eq rfl (optionalText_arrange arranges entry.responseBody))
  apply bind_eq_some (need_eq rfl (natBelow?_arrange arranges fits.millis))
  apply bind_eq_some (nullable_eq rfl (optionalText_arrange arranges entry.error))
  rfl

end Run

section Events

/-- A step event is read from its fields, whatever stands beside them. -/
theorem StepEvent.Fits.read_offers {event : StepEvent} (fits : event.Fits) {written : List (String × Json)}
    (offers : Offers arrange event.toFields written) : stepEventOf? (.named written) = some event := by
  apply bind_eq_some offers.record?
  apply bind_eq_some (need_eq rfl (text?_arrange arranges event.runId))
  apply bind_eq_some (need_eq rfl (text?_arrange arranges event.scenario))
  apply bind_eq_some (need_eq rfl (text?_arrange arranges event.stepId))
  apply bind_eq_some (need_eq rfl (text?_arrange arranges event.name))
  apply bind_eq_some (need_eq rfl (event.status.read_arrange arranges))
  apply bind_eq_some (optional_eq rfl (optionalNat_arrange arranges fits))
  apply bind_eq_some (orElse_eq [] rfl (textList?_arrange arranges event.details))
  rfl

theorem StepEvent.Fits.read_arrange {event : StepEvent} (fits : event.Fits) :
    stepEvent? (arrange event.toJson) = some event := by
  obtain ⟨written, object, -, offers⟩ := exists_offers event.toFields arranges (by simp [toFields])
  rw [StepEvent.toJson, object]
  exact bind_eq_some rfl (StepEvent.Fits.read_offers arranges fits offers)

theorem ProgressEvent.Fits.read_arrange {event : ProgressEvent} (fits : event.Fits) :
    progressEvent? (arrange event.toJson) = some event := by
  cases event with
  | step event =>
    obtain ⟨others, tagged, offers⟩ := tagged?_arrange "event" "step" event.toFields arranges
      (by simp [StepEvent.toFields])
    apply bind_eq_some tagged
    apply bind_eq_some (StepEvent.Fits.read_offers arranges fits offers)
    rfl
  | done runId scenario status canceled =>
    obtain ⟨others, tagged, offers⟩ := tagged?_arrange "event" "done" [("run_id", .string runId),
      ("scenario", .string scenario), ("status", .string status.name), ("canceled", .bool canceled)] arranges (by simp)
    apply bind_eq_some tagged
    apply bind_eq_some offers.record?
    apply bind_eq_some (need_eq rfl (text?_arrange arranges runId))
    apply bind_eq_some (need_eq rfl (text?_arrange arranges scenario))
    apply bind_eq_some (need_eq rfl (status.read_arrange arranges))
    apply bind_eq_some (need_eq rfl (bool?_arrange arranges canceled))
    rfl

end Events

end Arranged

/-- A value is read from what is written of it: as it is written, as it is read back from a text, and with the fields of
its objects in any other order. -/
structure RoundTrips {α : Type} (write : α → Json) (read : Json → Option α) (value : α) : Prop where
  written : read (write value) = some value
  canonical : read (write value).canonical = some value
  arranged : ∀ arrange, Arranges arrange → read (arrange (write value)) = some value

theorem RoundTrips.of_arranged {α : Type} {write : α → Json} {read : Json → Option α} {value : α}
    (arranged : ∀ {arrange}, Arranges arrange → read (arrange (write value)) = some value) :
    RoundTrips write read value :=
  ⟨arranged arranges_id, arranged arranges_canonical, fun _ arranges => arranged arranges⟩

/-- Whatever the fields of a record hold, what is written of the record is read as the same record. -/
theorem records_round_trip :
    (∀ scenario : Scenario, scenario.Fits → RoundTrips Scenario.toJson scenario? scenario) ∧
      (∀ edge : Edge, edge.Fits → RoundTrips Edge.toJson edge? edge) ∧
      (∀ result : StepResult, result.Fits → RoundTrips StepResult.toJson stepResult? result) ∧
      (∀ run : Run, run.Fits → RoundTrips Run.toJson run? run) ∧
      (∀ entry : HistoryEntry, entry.Fits → RoundTrips HistoryEntry.toJson historyEntry? entry) ∧
      (∀ event : StepEvent, event.Fits → RoundTrips StepEvent.toJson stepEvent? event) ∧
      ∀ event : ProgressEvent, event.Fits → RoundTrips ProgressEvent.toJson progressEvent? event := by
  refine ⟨?_, ?_, ?_, ?_, ?_, ?_, ?_⟩
  · intro scenario fits
    exact .of_arranged fun arranges => Scenario.Fits.read_arrange arranges fits
  · intro edge fits
    exact .of_arranged fun arranges => Edge.Fits.read_arrange arranges fits
  · intro result fits
    exact .of_arranged fun arranges => fits.read_arrange arranges
  · intro run fits
    exact .of_arranged fun arranges => fits.read_arrange arranges
  · intro entry fits
    exact .of_arranged fun arranges => fits.read_arrange arranges
  · intro event fits
    exact .of_arranged fun arranges => StepEvent.Fits.read_arrange arranges fits
  · intro event fits
    exact .of_arranged fun arranges => ProgressEvent.Fits.read_arrange arranges fits

section Sample

/-- A step with something in every field. -/
def payment : Step where
  id := "pay"
  name := "Pay the bill"
  method := .post
  url := "/bills/\x7b\x7bbill\x7d\x7d"
  headers := [("Accept", "*/*"), ("X-Try", "1")]
  body := some "\x7b\x7d\n"
  captures := [⟨"receipt", "id"⟩]
  asserts := [Assertion.existsAtLeast]
  sortOrder := 2
  position := some ⟨.zero true, .zero false⟩
  options := { timeout := some 500, retry := 1 }

/-- The bill is fetched, then it is paid. -/
def billing : Scenario where
  id := "billing"
  name := "Billing"
  source := some "billing.yaml"
  flow := .graph [{ id := "fetch", name := "Fetch", method := .get, url := "/bills" }, payment]
    [⟨"fetch", "pay", [("bill", "id"), ("due", "date")]⟩]

/-- How the bill was paid. -/
def paymentResult : StepResult where
  stepId := "pay"
  name := "Pay the bill"
  status := .failed
  request := some ⟨"POST", "http://localhost/bills/7", [("Accept", "*/*")], none⟩
  response := some ⟨402, [], "null"⟩
  millis := 12
  failures := ["status: expected == 200, got 402"]
  captured := [("receipt", .object [("id", .int (-1)), ("lines", .array [.null, .string "a"])])]

/-- Some event of a run that took place within a leap second. -/
def paymentRun : Run where
  id := "1"
  scenarioId := "billing"
  scenarioName := "Billing"
  environment := "local"
  status := .failed
  startedAt := some ⟨1483228799, 1500000000⟩
  results := [paymentResult]
  canceled := true

theorem payment_fits : payment.Fits where
  headers := by
    unfold Dict.Sorted
    decide
  asserts assertion member := by
    obtain rfl := List.mem_singleton.mp member
    exact ⟨Assertion.existsAtLeast.source, by rfl⟩
  sortOrder := by decide
  position position member := by
    cases member
    exact ⟨rfl, rfl⟩
  options := by
    refine ⟨fun millis member => ?_, by decide, by decide⟩
    cases member
    decide

theorem paymentResult_fits : paymentResult.Fits where
  request snapshot member := by
    cases member
    exact List.pairwise_singleton _ _
  response snapshot member := by
    cases member
    exact ⟨by decide, .nil⟩
  millis := by decide
  captured := List.pairwise_singleton _ _
  values pair member := by
    obtain rfl := List.mem_singleton.mp member
    have least : Json.leastInt ≤ -1 ∧ -1 ≤ Json.greatestInt := by decide
    have sorted : Dict.Sorted [("id", Json.int (-1)), ("lines", Json.array [.null, .string "a"])] := by
      unfold Dict.Sorted
      decide
    exact ⟨sorted, least, ⟨trivial, trivial, trivial⟩, trivial⟩

theorem paymentRun_fits : paymentRun.Fits where
  startedAt instant member := by
    cases member
    exact ⟨by decide, .inr ⟨by decide, by decide⟩⟩
  finishedAt instant member := by cases member
  results result member := by
    obtain rfl := List.mem_singleton.mp member
    exact paymentResult_fits

theorem billing_fits : billing.Fits := by
  constructor
  · intro step member
    simp only [List.mem_cons, List.not_mem_nil, or_false] at member
    rcases member with rfl | rfl
    · exact ⟨.nil, List.forall_mem_nil _, by decide, nofun, ⟨nofun, by decide, by decide⟩⟩
    · exact payment_fits
  · intro edge member
    obtain rfl := List.mem_singleton.mp member
    unfold Edge.Fits Dict.Sorted
    decide

/-- The entry of the payment in a history, under the least identifier of all. -/
def paymentEntry : HistoryEntry where
  id := -(Nat.pow 2 63 : Int)
  timestamp := ⟨-62167219200, 999999999⟩
  method := "POST"
  url := "http://localhost/bills/7"
  requestHeaders := []
  requestBody := some ""
  status := some 402
  responseHeaders := [("content-type", "application/json")]
  responseBody := none
  millis := wordBound 64 - 1

theorem paymentEntry_fits : paymentEntry.Fits where
  id := by decide
  timestamp := ⟨by decide, .inl (by decide)⟩
  requestHeaders := .nil
  status status member := by
    cases member
    decide
  responseHeaders := List.pairwise_singleton _ _
  millis := by decide

/-- What the payment is told as. -/
def paymentEvent : StepEvent := .ofResult paymentRun paymentResult

theorem paymentEvent_fits : paymentEvent.Fits := by
  intro millis member
  cases member
  decide

theorem billing_round_trips :
    (billing.Fits ∧ RoundTrips Scenario.toJson scenario? billing) ∧
      (∀ edge ∈ [(⟨"fetch", "pay", [("bill", "id")]⟩ : Edge)], edge.Fits ∧ RoundTrips Edge.toJson edge? edge) ∧
      (paymentResult.Fits ∧ RoundTrips StepResult.toJson stepResult? paymentResult) ∧
      (paymentRun.Fits ∧ RoundTrips Run.toJson run? paymentRun) ∧
      (paymentEntry.Fits ∧ RoundTrips HistoryEntry.toJson historyEntry? paymentEntry) ∧
      (paymentEvent.Fits ∧ RoundTrips StepEvent.toJson stepEvent? paymentEvent) ∧
      ∀ event ∈ [ProgressEvent.step paymentEvent, .ofRun paymentRun],
        event.Fits ∧ RoundTrips ProgressEvent.toJson progressEvent? event := by
  obtain ⟨scenario, edge, result, run, entry, event, progress⟩ := records_round_trip
  refine ⟨⟨billing_fits, scenario _ billing_fits⟩, ?_, ⟨paymentResult_fits, result _ paymentResult_fits⟩,
    ⟨paymentRun_fits, run _ paymentRun_fits⟩, ⟨paymentEntry_fits, entry _ paymentEntry_fits⟩,
    ⟨paymentEvent_fits, event _ paymentEvent_fits⟩, ?_⟩
  · intro join member
    obtain rfl := List.mem_singleton.mp member
    have fits : Edge.Fits ⟨"fetch", "pay", [("bill", "id")]⟩ := List.pairwise_singleton _ _
    exact ⟨fits, edge _ fits⟩
  · intro told member
    have fits : told.Fits := by
      simp only [List.mem_cons, List.not_mem_nil, or_false] at member
      rcases member with rfl | rfl
      · exact paymentEvent_fits
      · trivial
    exact ⟨fits, progress told fits⟩

end Sample

end Runbook

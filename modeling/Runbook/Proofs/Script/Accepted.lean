import Runbook.Proofs.Control
import Runbook.Proofs.Plan.Inbound
import Runbook.Proofs.Run.Course
import Runbook.Proofs.Script.Reading
import Runbook.Proofs.Text.Blank

/-!
The scenario of a script can be run: each check of a scenario follows from what the reading of the script asks of a
line, and the plan takes the steps as the reading has sorted them.
-/

namespace Runbook

open Runbook.Text

/-- What the check of a scenario asks of a step alone. -/
structure Step.Checked (step : Step) : Prop where
  id : trim step.id.toList ≠ []
  url : trim step.url.toList ≠ []
  captures : ∀ capture ∈ step.captures, Capture.check capture.name capture.path = .ok ()

namespace Script

variable {line : String}

/-- The URL of a request line is one word. -/
theorem isSolid_of_readRequestLine {method : Method} {url : String} (read : readRequestLine line = .ok (method, url)) :
    IsSolid url.toList := by
  unfold readRequestLine at read
  split at read
  · cases read
  · obtain ⟨_, _, thrown⟩ := bind_eq_ok_iff.mp read
    cases thrown
  · next first second rest split =>
    have member : second ∈ words line.toList := by simp [split]
    have word : IsSolid second := isSolid_of_mem_words member
    obtain ⟨found, _, ends⟩ := bind_eq_ok_iff.mp read
    cases rest with
    | nil =>
      cases ends
      simpa using word
    | cons version more =>
      dsimp only at ends
      split at ends
      · cases ends
        simpa using word
      · cases ends

theorem isTrimmed_of_pair? {text : List Char} {name value : String} (found : pair? text = some (name, value)) :
    IsTrimmed value.toList := by
  unfold pair? at found
  split at found
  · dsimp only at found
    split at found
    · cases found
    · cases found
      simpa using isTrimmed_trim _
  · cases found

theorem check_of_readCapture {capture : Capture} (read : readCapture line = .ok capture) :
    Capture.check capture.name capture.path = .ok () := by
  unfold readCapture at read
  split at read
  · obtain ⟨_, checked, same⟩ := bind_eq_ok_iff.mp read
    cases same
    exact checked
  · cases read

/-- An id that is set is not blank. -/
theorem trim_ne_nil_of_readSetting {text : String} (read : readSetting line = .ok (.id text)) :
    trim text.toList ≠ [] := by
  obtain ⟨⟨key, value⟩, pair, made⟩ := readSetting_eq_ok_iff.mp read
  unfold Setting.ofPair? at made
  split at made
  · split at made
    · cases made
    · next some =>
      cases made
      rw [show trim value.toList = value.toList from isTrimmed_of_pair? pair]
      simpa using some
  · simp at made
  · simp at made
  · simp at made
  · simp at made
  · cases made

/-- What a line can do to a draft. -/
inductive Draft.Takes (line : String) (draft : Draft) : Draft → Prop where
  | place (place : Section) : Takes line draft { draft with place }
  | header (name value : String) : Takes line draft { draft with headers := draft.headers.insert name value }
  | body : Takes line draft { draft with bodyLines := draft.bodyLines ++ [line] }
  | capture (capture : Capture) (read : readCapture (trimmed line) = .ok capture) :
      Takes line draft { draft with captures := draft.captures ++ [capture] }
  | assertion (assertion : Assertion) (read : Assertion.parse (trimmed line) = .ok assertion) :
      Takes line draft { draft with asserts := draft.asserts ++ [assertion] }
  | setting (setting : Setting) (read : readSetting (trimmed line) = .ok setting) : Takes line draft (draft.set setting)

theorem Draft.takes_of_addLine {draft last : Draft} (read : draft.addLine line = .ok last) : draft.Takes line last := by
  have still : draft.Takes line draft := .place draft.place
  obtain ⟨place, headers, bodyLines, captures, asserts, options, id⟩ := draft
  cases place with
  | headers =>
    simp only [Draft.addLine] at read
    split at read
    · cases read
      exact .place .body
    · split at read
      · cases read
        exact still
      · split at read
        · cases read
          exact .header _ _
        · cases read
  | body =>
    cases read
    exact .body
  | captures =>
    simp only [Draft.addLine] at read
    split at read
    · cases read
      exact still
    · obtain ⟨capture, found, same⟩ := bind_eq_ok_iff.mp read
      cases same
      exact .capture capture found
  | asserts =>
    simp only [Draft.addLine] at read
    split at read
    · cases read
      exact still
    · split at read
      · next assertion found =>
        cases read
        exact .assertion assertion found
      · cases read
  | options =>
    simp only [Draft.addLine] at read
    split at read
    · cases read
      exact still
    · obtain ⟨setting, found, same⟩ := bind_eq_ok_iff.mp read
      cases same
      exact .setting setting found

/-- A line that can be read opens a section or is taken by the present one. -/
theorem Draft.takes_of_next {draft last : Draft} (read : draft.next line = .ok last) : draft.Takes line last := by
  unfold Draft.next at read
  split at read
  · cases read
    exact .place _
  · exact takes_of_addLine read

/-- What has been read of a block so far passes the checks. -/
structure Draft.Checked (draft : Draft) : Prop where
  id : ∀ id, draft.id = some id → trim id.toList ≠ []
  captures : ∀ capture ∈ draft.captures, Capture.check capture.name capture.path = .ok ()

namespace Draft.Checked

variable {draft last : Draft}

theorem set (checked : draft.Checked) {setting : Setting} (read : readSetting line = .ok setting) :
    (draft.set setting).Checked := by
  cases setting with
  | id text =>
    refine ⟨fun id same => ?_, checked.captures⟩
    cases same
    exact trim_ne_nil_of_readSetting read
  | timeout | retry | retryWait => exact ⟨checked.id, checked.captures⟩

theorem takes (checked : draft.Checked) (takes : draft.Takes line last) : last.Checked := by
  cases takes with
  | place | header | body | assertion => exact ⟨checked.id, checked.captures⟩
  | capture capture read =>
    refine ⟨checked.id, fun other member => ?_⟩
    rcases List.mem_append.mp member with old | new
    · exact checked.captures other old
    · rw [List.mem_singleton.mp new]
      exact check_of_readCapture read
  | setting setting read => exact checked.set read

/-- Whatever lines are read, the checks pass. -/
theorem foldlM_next {lines : List String} (checked : draft.Checked) (read : lines.foldlM Draft.next draft = .ok last) :
    last.Checked := by
  induction lines generalizing draft with
  | nil =>
    cases read
    exact checked
  | cons line rest ih =>
    rw [List.foldlM_cons, bind_eq_ok_iff] at read
    obtain ⟨between, first, later⟩ := read
    exact ih (checked.takes (takes_of_next first)) later

end Draft.Checked

/-- The step of a block passes the checks of a step alone. -/
theorem checked_of_step {block : Block} {step : Step} (read : block.step = .ok step) : step.Checked := by
  obtain ⟨request, method, url, draft, -, requestLine, lines, rfl⟩ := Block.step_eq_ok_iff.mp read
  have opening : Draft.Checked {} := ⟨by rintro id ⟨⟩, by rintro capture ⟨⟩⟩
  have checked := opening.foldlM_next lines
  refine ⟨?_, ?_, checked.captures⟩
  · show trim (draft.id.getD _).toList ≠ []
    cases given : draft.id with
    | some id => exact checked.id id given
    | none =>
      rw [Option.getD_none, ne_eq, trim_eq_nil_iff]
      intro blank
      have first : isBlank 's' = true := blank 's' (by simp [String.toList_append])
      exact absurd first (by decide)
  · have solid := isSolid_of_readRequestLine requestLine
    show trim url.toList ≠ []
    rw [show trim url.toList = url.toList from solid.isTrimmed]
    exact solid.ne_nil

end Script

namespace Scenario

theorem checkStep_of_checked {step : Step} {seen : List String} (checked : step.Checked) (fresh : step.id ∉ seen) :
    checkStep seen step = .ok () := by
  obtain ⟨id, url, captures⟩ := checked
  unfold checkStep
  simp only [List.isEmpty_iff, id, url, if_false, List.contains_iff_mem, fresh]
  exact forM_eq_ok fun capture member => mapError_eq_ok_iff.mpr (captures capture member)

/-- Steps with distinct ids that pass their own checks pass all checks. -/
theorem checkSteps_of_checked {steps : List Step} {seen : List String} (checked : ∀ step ∈ steps, step.Checked)
    (distinct : (steps.map Step.id).Nodup) (fresh : ∀ step ∈ steps, step.id ∉ seen) :
    checkSteps seen steps = .ok () := by
  induction steps generalizing seen with
  | nil => rfl
  | cons step rest ih =>
    unfold checkSteps
    rw [checkStep_of_checked (checked step List.mem_cons_self) (fresh step List.mem_cons_self)]
    rw [List.map_cons, List.nodup_cons] at distinct
    refine ih (fun other member => checked other (List.mem_cons_of_mem _ member)) distinct.2 fun other member => ?_
    have apart : other.id ≠ step.id := fun same => distinct.1 (List.mem_map.mpr ⟨other, member, same⟩)
    simpa [apart] using fresh other (List.mem_cons_of_mem _ member)

/-- A script of checked steps in sort order with distinct ids is valid, and its plan is a chain. -/
theorem validate_script {scenario : Scenario} {steps : List Step} (script : scenario.flow = .script steps)
    (some : steps ≠ []) (checked : ∀ step ∈ steps, step.Checked) (distinct : (steps.map Step.id).Nodup)
    (sorted : steps.Pairwise fun first second => first.sortOrder ≤ second.sortOrder) :
    scenario.validate = .ok (Plan.chain steps.length) := by
  have own : scenario.steps = steps := by rw [Scenario.steps, script, Flow.steps]
  have passed : checkSteps [] scenario.steps = .ok () := by
    rw [own]
    exact checkSteps_of_checked checked distinct fun _ _ => List.not_mem_nil
  have planned : scenario.plan = .ok (Plan.chain steps.length) := by
    rw [Scenario.plan, script]
    exact congrArg Except.ok (Plan.ofScript_eq_chain sorted)
  have filled : scenario.steps.isEmpty = false := by rwa [own, List.isEmpty_eq_false_iff]
  unfold validate
  rw [filled, passed]
  exact planned

end Scenario

theorem Plan.chain_dependsOn_iff {count source target : Nat} :
    (chain count).DependsOn source target ↔ source + 1 = target ∧ target < count := by
  show source ∈ ((List.range count).map fun index => _).getD target [] ↔ _
  rw [List.getD_eq_getElem?_getD, List.getElem?_map]
  by_cases inside : target < count
  · cases target with
    | zero => simp [inside]
    | succ target => simp [inside, eq_comm]
  · simp [inside]

namespace Engine

open Interaction

/-- A valid scenario is never refused for a fault of its own. -/
theorem carryOut_ne_scenario_error {σ : Type} {scenario : Scenario} {plan : Plan} (valid : scenario.validate = .ok plan)
    (options : RunOptions) (start : Start) (executor : Executor) (observe : σ → Note → σ) (world : World σ)
    (error : ScenarioError) : (carryOut options scenario start executor observe world).1 ≠
      some (.error (.scenario error)) := by
  intro refused
  cases checked : start.environment.check with
  | error fault =>
    have faulty : (start.told world.canceled).environment.check = .error fault := checked
    simp [carryOut, run, valid, faulty, play] at refused
  | ok _ =>
    have carried : carryOut options scenario start executor observe world =
        (some (.error (.scenario error)), (carryOut options scenario start executor observe world).2) :=
      Prod.ext refused rfl
    obtain ⟨notes, runs, -⟩ := exists_runs_of_play carried
    have sound : (start.told world.canceled).environment.check = .ok () := checked
    obtain ⟨_, _, _, ends, _⟩ := run_runs valid sound runs
    cases ends

end Engine

namespace Script

/-- A script that can be read can be run: it is valid, its plan takes the steps in the order in which the reading gives
them, each depends on the one before it and on no other, and no run is refused for a fault of the scenario. -/
theorem parse_accepted {document : String} {hint : Option String} {scenario : Scenario}
    (parsed : parse document hint = .ok scenario) :
    scenario.validate = .ok (Plan.chain scenario.steps.length) ∧
      (Plan.chain scenario.steps.length).order = List.range scenario.steps.length ∧
      (∀ source target, (Plan.chain scenario.steps.length).DependsOn source target ↔
        source + 1 = target ∧ target < scenario.steps.length) ∧
      ∀ {σ : Type} (options : RunOptions) (start : Engine.Start) (executor : Interaction.Executor)
        (observe : σ → Note → σ) (world : Interaction.World σ) (error : ScenarioError),
        (Engine.carryOut options scenario start executor observe world).1 ≠ some (.error (.scenario error)) := by
  obtain ⟨found, declared, -, some, blocks, distinct, same⟩ := parse_eq_ok_iff.mp parsed
  have stepsOf : declared ≠ [] := by
    rintro rfl
    cases blocks
    exact some rfl
  have sorted : sortSteps declared ≠ [] := fun none => stepsOf (none ▸ sortSteps_perm declared).nil_eq.symm
  have checked : ∀ step ∈ sortSteps declared, step.Checked := by
    intro step member
    have inDeclared := (sortSteps_perm declared).mem_iff.mp member
    obtain ⟨block, -, read⟩ := Scenario.exists_of_forall₂ blocks inDeclared
    exact checked_of_step read
  have script : scenario.flow = .script (sortSteps declared) := by rw [same]
  have own : scenario.steps = sortSteps declared := by rw [Scenario.steps, script, Flow.steps]
  have valid : scenario.validate = .ok (Plan.chain scenario.steps.length) := by
    rw [own]
    exact Scenario.validate_script script sorted checked distinct (pairwise_sortSteps declared)
  exact ⟨valid, rfl, fun _ _ => Plan.chain_dependsOn_iff, Engine.carryOut_ne_scenario_error valid⟩

/-- A script with two steps of the same number, of which one sets its id. -/
def shop : String :=
  "# Shop\n\n## Step 1: buy\n\n\x60\x60\x60kest\nGET /buy\n\n[Captures]\norder: $.id\n\n[Options]\nid: buy\n" ++
    "\x60\x60\x60\n\n## Step 1\n\n\x60\x60\x60http\nPOST /pay\n\x60\x60\x60\n"

theorem shop_accepted :
    ∃ scenario, parse shop none = .ok scenario ∧ scenario.steps.length = 2 ∧
      scenario.validate = .ok (Plan.chain 2) := by
  have reads : (blocks shop).toOption.bind (fun found => (found.mapM Block.step).toOption.map (·.map Step.id)) =
      some ["buy", "step-1"] := by decide +kernel
  cases scanned : blocks shop with
  | error error => simp [scanned, Except.toOption] at reads
  | ok found =>
    cases read : found.mapM Block.step with
    | error error => simp [scanned, read, Except.toOption] at reads
    | ok declared =>
      have ids : declared.map Step.id = ["buy", "step-1"] := by simpa [scanned, read, Except.toOption] using reads
      have some : found ≠ [] := by
        rintro rfl
        cases read
        cases ids
      have distinct : ((sortSteps declared).map Step.id).Nodup := by
        rw [((sortSteps_perm declared).map Step.id).nodup_iff, ids]
        decide
      obtain ⟨scenario, parsed, own⟩ :
          ∃ scenario, parse shop none = .ok scenario ∧ scenario.steps = sortSteps declared :=
        ⟨_, parse_eq_ok_iff.mpr ⟨found, declared, scanned, some, mapM_eq_ok_iff.mp read, distinct, rfl⟩, rfl⟩
      have count : scenario.steps.length = 2 := by
        rw [own, (sortSteps_perm declared).length_eq, ← List.length_map Step.id, ids]
        rfl
      have accepted := (parse_accepted parsed).1
      rw [count] at accepted
      exact ⟨scenario, parsed, count, accepted⟩

end Script
end Runbook

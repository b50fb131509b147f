import Runbook.Proofs.Control
import Runbook.Proofs.Plan.Wiring
import Runbook.Script.Basic

/-!
When a script is read: what its blocks, the lines in them and the numbers of its steps have to be for the reading to
succeed, and what it gives then.
-/

namespace Runbook

open Runbook.Text

namespace Script

/-- The setting that a key and its value make. -/
def Setting.ofPair? (key value : String) : Option Setting :=
  match lower key with
  | "id" => if value.isEmpty then none else some (.id value)
  | "timeout" => (Duration.millis? value.toList).map fun x => .timeout (x.floorWithin greatestMillis)
  | "retry" => (naturalBelow? (Nat.pow 2 32) value.toList).map .retry
  | "retry_wait" | "retry-wait" =>
    (Duration.millis? value.toList).map fun x => .retryWait (x.floorWithin greatestMillis)
  | _ => none

theorem readSetting_eq_ok_iff {line : String} {setting : Setting} :
    readSetting line = .ok setting ↔
      ∃ pair, pair? line.toList = some pair ∧ Setting.ofPair? pair.1 pair.2 = some setting := by
  rw [← Option.bind_eq_some_iff]
  unfold readSetting
  dsimp only
  split
  · next other made =>
    have same : ((pair? line.toList).bind fun pair => Setting.ofPair? pair.1 pair.2) = some other := made
    rw [same, Except.ok.injEq, Option.some.injEq]
  · next made =>
    have none : ((pair? line.toList).bind fun pair => Setting.ofPair? pair.1 pair.2) = none := made
    rw [none]
    exact iff_of_false nofun nofun

/-- The lines of a block behind one of them. -/
def Block.behind (block : Block) (line : Line) : List String :=
  ((block.lines.dropWhile (·.number != line.number)).drop 1).map Line.text

/-- The step of a block with a request line and what has been read after it. -/
def Block.assemble (block : Block) (method : Method) (url : String) (draft : Draft) : Step where
  id := draft.id.getD ("step-" ++ toString block.number)
  name := block.label
  method := method
  url := url
  headers := draft.headers
  body := draft.body?
  captures := draft.captures
  asserts := draft.asserts
  sortOrder := block.number
  options := draft.options

/-- That the lines can be read does not depend on how a failure is told. -/
theorem foldlM_next_eq_ok_iff {fault : Line → Defect → ScenarioError} {lines : List Line} {draft last : Draft} :
    lines.foldlM (fun draft line => (draft.next line.text).mapError (fault line)) draft = .ok last ↔
      (lines.map Line.text).foldlM Draft.next draft = .ok last := by
  induction lines generalizing draft with
  | nil => simp [pure, Except.pure]
  | cons line rest ih => simp only [List.foldlM_cons, List.map_cons, bind_eq_ok_iff, mapError_eq_ok_iff, ih]

/-- A block has a step exactly when it has a line that says something, the first such line is a request line, and the
lines behind it can be read. -/
theorem Block.step_eq_ok_iff {block : Block} {step : Step} :
    block.step = .ok step ↔ ∃ request method url draft, block.lines.find? (!isInert ·.text) = some request ∧
      readRequestLine request.text = .ok (method, url) ∧ (block.behind request).foldlM Draft.next {} = .ok draft ∧
      block.assemble method url draft = step := by
  unfold Block.step
  cases block.lines.find? (!isInert ·.text) with
  | none =>
    constructor
    · rintro ⟨⟩
    · rintro ⟨_, _, _, _, ⟨⟩, _⟩
  | some request =>
    simp only [bind_eq_ok_iff, mapError_eq_ok_iff, Option.some.injEq]
    constructor
    · rintro ⟨⟨method, url⟩, line, draft, folded, same⟩
      exact ⟨request, method, url, draft, rfl, line, foldlM_next_eq_ok_iff.mp folded, Except.ok.inj same⟩
    · rintro ⟨_, method, url, draft, rfl, line, folded, rfl⟩
      exact ⟨(method, url), line, draft, foldlM_next_eq_ok_iff.mpr folded, rfl⟩

/-- Steps by number, and where numbers are the same as they were. -/
def sortSteps (steps : List Step) : List Step :=
  steps.mergeSort fun first second => first.sortOrder ≤ second.sortOrder

theorem sortSteps_perm (steps : List Step) : (sortSteps steps).Perm steps := List.mergeSort_perm _ _

theorem pairwise_sortSteps (steps : List Step) :
    (sortSteps steps).Pairwise fun first second => first.sortOrder ≤ second.sortOrder := by
  refine (List.pairwise_mergeSort ?_ ?_ steps).imp of_decide_eq_true
  · intro first second third
    simp only [decide_eq_true_eq]
    exact Nat.le_trans
  · intro first second
    simp only [Bool.or_eq_true, decide_eq_true_eq]
    exact Nat.le_total _ _

/-- No step has an id that was seen before it. -/
theorem firstRepeated?_eq_none_iff {seen : List String} {steps : List Step} :
    firstRepeated? seen steps = none ↔ (steps.map Step.id).Nodup ∧ ∀ step ∈ steps, step.id ∉ seen := by
  induction steps generalizing seen with
  | nil => simp [firstRepeated?]
  | cons step rest ih =>
    unfold firstRepeated?
    split
    · next repeated =>
      have known : step.id ∈ seen := by simpa using repeated
      simp [known]
    · next new =>
      have fresh : step.id ∉ seen := by simpa using new
      rw [ih, List.map_cons, List.nodup_cons]
      simp only [List.mem_map, List.mem_cons, not_or, not_exists, not_and, forall_eq_or_imp]
      constructor
      · rintro ⟨distinct, others⟩
        exact ⟨⟨fun other member same => (others other member).1 same, distinct⟩, fresh,
          fun other member => (others other member).2⟩
      · rintro ⟨⟨apart, distinct⟩, -, others⟩
        exact ⟨distinct, fun other member => ⟨apart other member, others other member⟩⟩

/-- A script has a scenario exactly when it has blocks, each of them has a step, and the ids of the steps are
distinct. -/
theorem parse_eq_ok_iff {document : String} {hint : Option String} {scenario : Scenario} :
    parse document hint = .ok scenario ↔ ∃ found declared, blocks document = .ok found ∧ found ≠ [] ∧
      List.Forall₂ (fun block step => block.step = .ok step) found declared ∧
      ((sortSteps declared).map Step.id).Nodup ∧
      scenario = {
        id := Slug.ofName ((title? document).getD (hint.getD "scenario"))
        name := (title? document).getD (hint.getD "scenario")
        flow := .script (sortSteps declared) } := by
  unfold parse
  rw [bind_eq_ok_iff]
  refine exists_congr fun found => ?_
  cases found with
  | nil => simp [bind, Except.bind, throw, throwThe, MonadExceptOf.throw]
  | cons first rest =>
    simp only [List.isEmpty_cons, Bool.false_eq_true, if_false, bind_eq_ok_iff, mapM_eq_ok_iff, exists_and_left,
      ne_eq, reduceCtorEq, not_false_eq_true, true_and]
    refine and_congr_right fun _ => exists_congr fun declared => and_congr_right fun _ => ?_
    have repeats : firstRepeated? [] (sortSteps declared) = none ↔ ((sortSteps declared).map Step.id).Nodup := by
      simp [firstRepeated?_eq_none_iff]
    rw [← repeats]
    have sorted : (declared.mergeSort fun first second => first.sortOrder ≤ second.sortOrder) =
        sortSteps declared := rfl
    rw [sorted]
    cases firstRepeated? [] (sortSteps declared) with
    | some step => simp [throw, throwThe, MonadExceptOf.throw]
    | none => simp [pure, Except.pure, eq_comm, sortSteps]

end Script
end Runbook

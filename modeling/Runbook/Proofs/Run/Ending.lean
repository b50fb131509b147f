import Runbook.Proofs.Run.Provenance
import Runbook.Proofs.Run.Sending

/-!
How a step that is executed ends, in one of three ways. No request can be made of it, and nothing is sent; or every
attempt to send its request fails, and so does each of its assertions; or there is a response, and what is captured from
it and which assertions hold of it decides the rest.
-/

namespace Runbook

namespace Capture

/-- The last capture of a name, among those that take a value out of a response, takes the value. -/
def LastTakes (captures : List Capture) (json : Option Json) (headers : Dict String) (name : String) (value : Json) :
    Prop :=
  ∃ front capture back, captures = front ++ capture :: back ∧ capture.name = name ∧
    take json headers capture.path = .ok value ∧
    ∀ later ∈ back, later.name = name → ∃ error, take json headers later.path = .error error

variable {captures : List Capture} {json : Option Json} {headers : Dict String} {name : String} {value : Json}

theorem takeAll_append (first second : List Capture) :
    takeAll json headers (first ++ second) = takeAll json headers first ++ takeAll json headers second :=
  List.filterMap_append

theorem takeAll_cons_of_ok {capture : Capture} (taken : take json headers capture.path = .ok value)
    (rest : List Capture) :
    takeAll json headers (capture :: rest) = (capture.name, value) :: takeAll json headers rest := by
  simp [takeAll, taken, Except.toOption]

theorem takeAll_cons_of_error {capture : Capture} {error : PathError}
    (failed : take json headers capture.path = .error error) (rest : List Capture) :
    takeAll json headers (capture :: rest) = takeAll json headers rest := by
  simp [takeAll, failed, Except.toOption]

/-- No value is taken under a name when every capture of the name fails. -/
theorem last?_takeAll_eq_none_iff : Dict.last? name (takeAll json headers captures) = none ↔
    ∀ capture ∈ captures, capture.name = name → ∃ error, take json headers capture.path = .error error := by
  induction captures with
  | nil => simp [takeAll, Dict.last?]
  | cons capture rest ih =>
    rw [List.forall_mem_cons, ← ih]
    cases taken : take json headers capture.path with
    | error error => simp [takeAll_cons_of_error taken]
    | ok value => simp [takeAll_cons_of_ok taken, Dict.last?_cons, and_comm, @eq_comm _ name]

/-- Of the values that captures take, the last one under a name is that of the last capture of the name that takes
one. -/
theorem last?_takeAll_iff : Dict.last? name (takeAll json headers captures) = some value ↔
    LastTakes captures json headers name value := by
  constructor
  · intro last
    induction captures with
    | nil => cases last
    | cons capture rest ih =>
      cases taken : take json headers capture.path with
      | error error =>
        rw [takeAll_cons_of_error taken] at last
        obtain ⟨front, other, back, rfl, found⟩ := ih last
        exact ⟨capture :: front, other, back, rfl, found⟩
      | ok own =>
        rw [takeAll_cons_of_ok taken, Dict.last?_cons, Option.or_eq_some_iff] at last
        rcases last with later | ⟨none, here⟩
        · obtain ⟨front, other, back, rfl, found⟩ := ih later
          exact ⟨capture :: front, other, back, rfl, found⟩
        · obtain ⟨named, same⟩ := Option.ite_none_right_eq_some.mp here
          obtain rfl := Option.some.inj same
          exact ⟨[], capture, rest, rfl, named.symm, taken, last?_takeAll_eq_none_iff.mp none⟩
  · rintro ⟨front, capture, back, rfl, rfl, taken, none⟩
    rw [takeAll_append, Dict.last?_append, takeAll_cons_of_ok taken, Dict.last?_cons,
      last?_takeAll_eq_none_iff.mpr none, if_pos rfl]
    rfl

end Capture

namespace Engine

open Interaction

/-- No request could be made of a step, and nothing was sent. -/
structure Unsent (options : RunOptions) (environment : Environment) (draws : Template.Draws) (scope : Scope)
    (step : Step) (sent : List Request) (executed : Executed) : Prop where
  unsendable : Unsendable environment draws scope step
  silent : sent = []
  status : executed.result.status = .failed
  request : executed.result.request = none
  response : executed.result.response = none
  captured : executed.result.captured = []
  failures : executed.result.failures = []
  error : ∃ fault, Engine.request options environment draws scope step = .error fault ∧
    executed.result.error = some fault.message
  unchanged : executed.scope = scope

/-- The one request of a step was sent on every attempt, the last of which gave the outcome. -/
structure Sends (executor : Executor) (options : RunOptions) (environment : Environment) (draws : Template.Draws)
    (scope : Scope) (step : Step) (earlier sent : List Request) (executed : Executed) (outcome : Outcome) : Prop where
  sendable : ¬Unsendable environment draws scope step
  request : ∃ made retries, Engine.request options environment draws scope step = .ok made ∧
    sent = List.replicate (retries + 1) made ∧
    Attempted executor step.options.retry earlier made retries outcome ∧
    executed.result.request = some made.snapshot

/-- There was no response to a step, and each of its assertions failed. -/
structure Fruitless (scope : Scope) (step : Step) (executed : Executed) (error : NetworkError) : Prop where
  status : executed.result.status = .failed
  response : executed.result.response = none
  captured : executed.result.captured = []
  failures : executed.result.failures = step.asserts.map fun assertion => assertion.source ++ ": no response received"
  error : executed.result.error = some error.message
  unchanged : executed.scope = scope

/-- The verdict on an assertion of a step with a response: its scope is the one after the captures. -/
def verdict (draws : Template.Draws) (executed : Executed) (reply : Reply) (index : Nat) (assertion : Assertion) :
    Verdict :=
  Assertion.evaluate ((draws.part 2).part index) executed.scope (some (facts reply reply.json?)) assertion

/-- There was a response to a step. A name is captured as the last capture of the name takes it that takes anything, in
front of what the scope had; and the step failed by just the assertions that do not hold. -/
structure Judged (draws : Template.Draws) (scope : Scope) (step : Step) (executed : Executed) (reply : Reply) :
    Prop where
  response : executed.result.response = some reply.snapshot
  captured : ∀ name value, executed.result.captured.find? name = some value ↔
    Capture.LastTakes step.captures reply.json? reply.headers name value
  scope : ∀ name, executed.scope.find? name =
    ((executed.result.captured.find? name).map fun value => (value, Origin.captured)).or (scope.find? name)
  failures : executed.result.failures =
    ((step.asserts.mapIdx (verdict draws executed reply)).filter (!·.pass)).map Verdict.detail
  passed : executed.result.status = .passed ↔ executed.result.failures = []
  failed : executed.result.status = .failed ↔ executed.result.failures ≠ []
  error : executed.result.error = none

/-- The ways in which a step ends. -/
inductive Ending where
  | unsent
  | unanswered
  | answered

/-- A step that is executed behind earlier requests, and sends some, ends in a way. -/
def Ending.Holds (executor : Executor) (options : RunOptions) (environment : Environment) (draws : Template.Draws)
    (scope : Scope) (step : Step) (earlier sent : List Request) (executed : Executed) : Ending → Prop
  | unsent => Unsent options environment draws scope step sent executed
  | unanswered => ∃ error, Sends executor options environment draws scope step earlier sent executed (.error error) ∧
    Fruitless scope step executed error
  | answered => ∃ reply, Sends executor options environment draws scope step earlier sent executed (.ok reply) ∧
    Judged draws scope step executed reply

variable {executor : Executor} {options : RunOptions} {environment : Environment} {draws : Template.Draws}
  {step : Step} {scope : Scope} {earlier sent : List Request} {executed : Executed}

/-- A step does not end in two ways: no request can be made of it in the first, and only in the last there is a
response. -/
theorem Ending.Holds.unique {first second : Ending}
    (one : first.Holds executor options environment draws scope step earlier sent executed)
    (other : second.Holds executor options environment draws scope step earlier sent executed) : first = second := by
  cases first <;> cases second
  case unsent.unsent | unanswered.unanswered | answered.answered => rfl
  case unsent.unanswered | unsent.answered =>
    obtain ⟨_, sends, _⟩ := other
    exact absurd one.unsendable sends.sendable
  case unanswered.unsent | answered.unsent =>
    obtain ⟨_, sends, _⟩ := one
    exact absurd other.unsendable sends.sendable
  case unanswered.answered =>
    obtain ⟨_, _, fruitless⟩ := one
    obtain ⟨_, _, judged⟩ := other
    cases fruitless.response.symm.trans judged.response
  case answered.unanswered =>
    obtain ⟨_, _, judged⟩ := one
    obtain ⟨_, _, fruitless⟩ := other
    cases fruitless.response.symm.trans judged.response

theorem detail_evaluate_none (draws : Template.Draws) (scope : Scope) (assertion : Assertion) :
    (Assertion.evaluate draws scope none assertion).detail = assertion.source ++ ": no response received" :=
  String.append_assoc

theorem evaluateAll_none (draws : Template.Draws) (scope : Scope) (assertions : List Assertion) :
    (Assertion.evaluateAll draws scope none assertions).map Verdict.detail =
      assertions.map fun assertion => assertion.source ++ ": no response received" := by
  refine List.ext_getElem? fun index => ?_
  rw [Assertion.evaluateAll, List.getElem?_map, List.getElem?_mapIdx, Option.map_map, List.getElem?_map]
  exact congrArg (Option.map · assertions[index]?) (funext fun assertion => detail_evaluate_none _ scope assertion)

theorem judged_judge (draws : Template.Draws) (scope : Scope) (step : Step) (made : Request) (reply : Reply)
    (canceled : Bool) (elapsed : Nat) :
    Judged draws scope step
      ⟨(judge draws scope step (running (.ofStep step)) made reply).1,
        (judge draws scope step (running (.ofStep step)) made reply).2, canceled, elapsed⟩ reply := by
  simp only [judge, takeCaptures_eq]
  refine ⟨rfl, fun name value => ?_, fun name => ?_, rfl, ?_, ?_, rfl⟩
  · rw [Dict.find?_ofPairs]
    exact Capture.last?_takeAll_iff
  · rw [Dict.find?_ofPairs]
    exact Scope.find?_captureAll _ _ _
  · simp
  · simp

/-- A step that is executed without being canceled ends in one of the ways. -/
theorem Executes.ends {canceled : Bool} {world final : World Unit} {notes : List Note}
    (executes : Executes executor options environment draws step (running (.ofStep step)) scope canceled world notes
      executed final) (steady : executor.Steady) (calm : world.canceled = false) :
    ∃ sent, final.requests = world.requests ++ sent ∧ ∃ ending : Ending,
      ending.Holds executor options environment draws scope step world.requests sent executed := by
  cases executes with
  | @unsendable error fault =>
    have unsendable : Unsendable environment draws scope step := by
      by_contra sendable
      have sends : ∃ made, request options environment draws scope step = .ok made := exists_request_iff.mpr sendable
      obtain ⟨made, formed⟩ := sends
      cases fault.symm.trans formed
    refine ⟨[], (List.append_nil _).symm, .unsent, unsendable, rfl, rfl, rfl, rfl, rfl, rfl, ⟨error, fault, rfl⟩, rfl⟩
  | @answered made sent reply notes final formed sends outcome =>
    obtain ⟨retries, attempted, requests⟩ := exists_attempted steady calm sends
    have sendable := exists_request_iff.mp ⟨made, formed⟩
    refine ⟨_, requests, .answered, reply, ⟨sendable, made, retries, formed, rfl, outcome ▸ attempted, rfl⟩, ?_⟩
    exact judged_judge draws scope step made reply sent.canceled sent.elapsed
  | @unanswered made sent error notes final formed sends outcome =>
    obtain ⟨retries, attempted, requests⟩ := exists_attempted steady calm sends
    have sendable := exists_request_iff.mp ⟨made, formed⟩
    refine ⟨_, requests, .unanswered, error, ⟨sendable, made, retries, formed, rfl, outcome ▸ attempted, rfl⟩, ?_⟩
    exact ⟨rfl, rfl, rfl, evaluateAll_none _ _ _, rfl, rfl⟩

end Engine
end Runbook

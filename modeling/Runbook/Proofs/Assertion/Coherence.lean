import Runbook.Assertion.Evaluate
import Runbook.Proofs.Assertion.Sides

/-!
Presence and equality. An assertion holds of a response only where its subject is there, and of two sides that are both
there either equality or inequality holds, never both and never none.
-/

namespace Runbook

open Runbook.Text

/-- The value that a subject names is there. -/
def Subject.Resolves (facts : Facts) : Subject → Prop
  | .status | .duration => True
  | .body path =>
    match facts.json with
    | some json => ∃ value, Path.find json path = .ok value
    | none => path = ""
  | .header name => ∃ header ∈ facts.headers, sameName header.1 name = true

/-- A right-hand side stands for a value: its placeholders do, and a text that is compared with a duration is one. -/
def Literal.Resolves (draws : Template.Draws) (scope : Scope) (subject : Subject) : Literal → Prop
  | .template text => ∃ value, Template.resolveValue draws scope text = .ok value ∧
      (subject = .duration → ∀ content, value = .string content → ∃ millis, Duration.millis? content.toList = some millis)
  | _ => True

/-- A right-hand side stands for the same value with either draws. -/
def Literal.Agrees (draws other : Template.Draws) (scope : Scope) : Literal → Prop
  | .template text => Template.resolveValue draws scope text = Template.resolveValue other scope text
  | _ => True

namespace Assertion

variable {draws other : Template.Draws} {scope : Scope} {facts : Facts} {subject : Subject} {literal : Literal}
  {assertion : Assertion}

/-- A comparison holds where both of its sides have values that compare so. -/
theorem judge_comparison (compares : assertion.operator.isPresence = false)
    (expects : assertion.expected = some literal) :
    (judge draws scope facts assertion).pass = true ↔
      ∃ value expected, actual facts assertion.subject = .ok value ∧
        expectedOf draws scope assertion.subject literal = .ok expected ∧
        (compare assertion.operator value expected).pass = true := by
  unfold judge
  rw [expects]
  cases operator : assertion.operator with
  | present | absent =>
    rw [operator] at compares
    cases compares
  | _ =>
    cases actual facts assertion.subject with
    | error cause => simp
    | ok value =>
      cases side : expectedOf draws scope assertion.subject literal with
      | error cause => simp [side]
      | ok expected => simp [side]

theorem pass_evaluate (draws : Template.Draws) (scope : Scope) (facts : Facts) (assertion : Assertion) :
    (evaluate draws scope (some facts) assertion).pass = (judge draws scope facts assertion).pass := rfl

theorem compare_equal (value : Json) (expected : Expected) :
    (compare .equal value expected).pass = equals value expected := by
  have plain : Operator.isOrdering .equal = false := by decide
  simp only [compare, plain, Bool.false_eq_true, if_false]
  cases equals value expected <;> rfl

/-- Two values that are there are equal or are not. -/
theorem compare_notEqual (value : Json) (expected : Expected) :
    (compare .notEqual value expected).pass = !(compare .equal value expected).pass := by
  have plain : Operator.isOrdering .equal = false ∧ Operator.isOrdering .notEqual = false := by decide
  simp only [compare, plain, Bool.false_eq_true, if_false]
  cases equals value expected <;> rfl

section

variable (draws : Template.Draws) (scope : Scope) (facts : Facts) (subject : Subject) (literal : Literal)
  (left right : List Char)

theorem expected_between {operator : Operator} (compares : operator.isPresence = false) :
    (between subject literal left right operator).expected = some literal := by
  simp [between, compares]

theorem evaluate_comparison {operator : Operator} (compares : operator.isPresence = false) :
    (evaluate draws scope (some facts) (between subject literal left right operator)).pass = true ↔
      ∃ value expected, actual facts subject = .ok value ∧ expectedOf draws scope subject literal = .ok expected ∧
        (compare operator value expected).pass = true := by
  rw [pass_evaluate]
  exact judge_comparison compares (expected_between subject literal left right compares)

end

end Assertion
end Runbook

import Runbook.Assertion.Reader
import Runbook.Path.Extract
import Runbook.Template.Resolve
import Runbook.Text.Quoted

/-!
Judging assertions by a response. Every assertion has a verdict of its own; a subject that is not there makes each
comparison fail.
-/

namespace Runbook

open Runbook.Text

/-- The facts of a response that assertions look at. -/
structure Facts where
  status : Nat
  millis : Nat
  headers : Dict String
  /-- The body, where it is JSON. -/
  json : Option Json
  body : String

/-- The value of the first header whose name is the given one in any case. -/
def headerValue? (headers : Dict String) (name : String) : Option String :=
  (List.find? (fun header => sameName header.1 name) headers).map Prod.snd

/-- The outcome of an assertion. -/
structure Verdict where
  pass : Bool
  detail : String
deriving DecidableEq, Repr

namespace Assertion

/-- Why a subject has no value. -/
inductive NoValue where
  | obstacle (cause : Path.Obstacle)
  | missingHeader (name : String)
  | notJson
deriving DecidableEq, Repr

/-- The wording of a missing value. -/
def NoValue.message : NoValue → String
  | obstacle cause => cause.message
  | missingHeader name => "missing header '" ++ name ++ "'"
  | notJson => "response body is not JSON"

/-- The value of a subject in a response. A body that is not JSON is a text as a whole, and has no parts. -/
def actual (facts : Facts) : Subject → Except NoValue Json
  | .status => .ok (.int facts.status)
  | .duration => .ok (.int facts.millis)
  | .body path =>
    match facts.json with
    | some json => (Path.find json path).mapError NoValue.obstacle
    | none => if path.isEmpty then .ok (.string facts.body) else .error .notJson
  | .header name =>
    match headerValue? facts.headers name with
    | some value => .ok (.string value)
    | none => .error (.missingHeader name)

/-- The right-hand side after its placeholders are filled. -/
inductive Expected where
  | value (json : Json)
  /-- A text that came from a placeholder and takes the kind of what it is compared with. -/
  | text (content : String)

/-- The written form of an expected value. -/
def Expected.shown : Expected → String
  | value json => json.compact
  | text content => quoted content

/-- The bound below which an integral number is written as an integer. -/
def integralBound : Int := 9000000000000000

/-- The JSON value of a number: an integer if it is integral and not too great, otherwise a double. -/
def numberValue (x : Double) : Json :=
  match x.integer? with
  | some n => if n.natAbs < integralBound.natAbs then .int n else Json.ofDouble x
  | none => Json.ofDouble x

/-- Why a right-hand side has no value. -/
inductive NoSide where
  | unresolved (error : Unresolved)
  | badDuration (text : String)
  | missing
deriving DecidableEq, Repr

/-- The wording of a missing right-hand side. -/
def NoSide.message : NoSide → String
  | unresolved error => error.message
  | badDuration text => "invalid duration '" ++ text ++ "'"
  | missing => "missing right-hand side"

/-- The value of a literal in a scope. A text compared with a duration is read as one. -/
def expectedOf (draws : Template.Draws) (scope : Scope) (subject : Subject) : Literal → Except NoSide Expected
  | .number x => .ok (.value (numberValue x))
  | .string text => .ok (.value (.string text))
  | .bool b => .ok (.value (.bool b))
  | .null => .ok (.value .null)
  | .json value => .ok (.value value)
  | .template text =>
    match Template.resolveValue draws scope text with
    | .error error => .error (.unresolved error)
    | .ok (.string content) =>
      if subject = .duration then
        match Duration.millis? content.toList with
        | some x => .ok (.value (numberValue x))
        | none => .error (.badDuration content)
      else .ok (.text content)
    | .ok value => .ok (.value value)

/-- A value equals an expected value: numbers by size, anything else by structure. -/
def equalsValue (actual expected : Json) : Bool :=
  match expected with
  | .int _ | .real _ =>
    match actual.number?, expected.number? with
    | some a, some b => a.same b
    | _, _ => false
  | other => Json.same actual other

/-- A value equals the right-hand side. A text equals the string it is, and any other value that it writes as JSON. -/
def equals (actual : Json) : Expected → Bool
  | .value expected => equalsValue actual expected
  | .text content =>
    match actual with
    | .string text => text == content
    | other =>
      match Json.parse? content with
      | some expected => equalsValue other expected
      | none => false

/-- The number that a right-hand side is. -/
def Expected.number? : Expected → Option Double
  | value json => json.number?
  | text content => Double.read? (trim content.toList)

/-- Two numbers stand in the order that an operator asks for. -/
def inOrder (operator : Operator) (first second : Double) : Bool :=
  match operator with
  | .less => first.less second
  | .atMost => first.atMost second
  | .greater => second.less first
  | _ => second.atMost first

/-- The outcome of comparing a value with the right-hand side: whether the assertion holds, and what to say. -/
def compare (operator : Operator) (actual : Json) (expected : Expected) : Verdict :=
  if operator.isOrdering then
    match actual.number?, expected.number? with
    | some first, some second =>
      if inOrder operator first second then
        ⟨true, actual.compact ++ " " ++ operator.text ++ " " ++ expected.shown⟩
      else ⟨false, "expected " ++ operator.text ++ " " ++ expected.shown ++ ", got " ++ actual.compact⟩
    | _, _ =>
      ⟨false, "type mismatch: '" ++ operator.text ++ "' needs numbers, got " ++ actual.compact ++ " and " ++
        expected.shown⟩
  else
    match operator == .equal, equals actual expected with
    | true, true | false, false => ⟨true, "got " ++ actual.compact⟩
    | true, false => ⟨false, "expected " ++ expected.shown ++ ", got " ++ actual.compact⟩
    | false, true => ⟨false, "expected anything but " ++ expected.shown ++ ", got " ++ actual.compact⟩

/-- The outcome of an assertion for a response, without its source line. -/
def judge (draws : Template.Draws) (scope : Scope) (facts : Facts) (assertion : Assertion) : Verdict :=
  match assertion.operator, actual facts assertion.subject with
  | .present, .ok _ => ⟨true, "present"⟩
  | .present, .error cause => ⟨false, cause.message⟩
  | .absent, .ok value => ⟨false, "present with value " ++ value.compact⟩
  | .absent, .error _ => ⟨true, "absent"⟩
  | _, .error cause => ⟨false, cause.message⟩
  | operator, .ok value =>
    match assertion.expected with
    | none => ⟨false, NoSide.missing.message⟩
    | some literal =>
      match expectedOf draws scope assertion.subject literal with
      | .error cause => ⟨false, cause.message⟩
      | .ok expected => compare operator value expected

/-- The verdict on an assertion. Without a response every assertion fails. -/
def evaluate (draws : Template.Draws) (scope : Scope) (response : Option Facts) (assertion : Assertion) : Verdict :=
  let outcome : Verdict := match response with
    | none => ⟨false, "no response received"⟩
    | some facts => judge draws scope facts assertion
  { outcome with detail := assertion.source ++ ": " ++ outcome.detail }

/-- The verdicts on several assertions, each with draws of its own. -/
def evaluateAll (draws : Template.Draws) (scope : Scope) (response : Option Facts) (assertions : List Assertion) :
    List Verdict :=
  assertions.mapIdx fun index assertion => evaluate (draws.part index) scope response assertion

end Assertion
end Runbook

import Runbook.Proofs.Assertion.Coherence
import Runbook.Proofs.Control
import Runbook.Proofs.Json.Compact
import Runbook.Proofs.Json.Finite
import Runbook.Proofs.Template.Placeholder
import Runbook.Run.Engine
import Runbook.Scenario.Capture

/-!
A captured value in placeholders and assertions: a placeholder with the name of a capture stands for the value that was
captured, with its kind, and the part of the body that the value came from equals the placeholder.
-/

namespace Runbook

open Runbook.Text

namespace Path

variable {holds : Json → Prop} {body value : Json} {segments : List Segment}

theorem of_item {items : List Json} {position : Nat} (found : item items position = .ok value)
    (each : ∀ item ∈ items, holds item) : holds value := by
  unfold item at found
  split at found
  next held =>
    cases found
    exact each value (List.mem_of_getElem? held)
  · cases found

/-- What all parts of a value have, the part at the end of a path has. -/
theorem of_step (hereditary : Json.Hereditary holds) {segment : Segment} (found : step body segment = .ok value)
    (whole : holds body) : holds value := by
  cases segment with
  | key name =>
    simp only [step] at found
    split at found
    · split at found
      next fields held inside =>
        cases found
        obtain ⟨front, back, rfl, -⟩ := List.lookup_eq_some_iff.mp inside
        exact hereditary.fields whole (name, value) (by simp)
      · cases found
    · split at found
      · exact of_item found (hereditary.items whole)
      · cases found
    · cases found
  | index position =>
    simp only [step] at found
    split at found
    · exact of_item found (hereditary.items whole)
    · cases found

theorem of_follow (hereditary : Json.Hereditary holds) (found : follow body segments = .ok value)
    (whole : holds body) : holds value := by
  induction segments generalizing body with
  | nil =>
    cases found
    exact whole
  | cons segment rest ih =>
    obtain ⟨inner, first, later⟩ := bind_eq_ok_iff.mp found
    exact ih later (of_step hereditary first whole)

theorem of_find (hereditary : Json.Hereditary holds) {path : String} (found : find body path = .ok value)
    (whole : holds body) : holds value := by
  obtain ⟨segments, -, follows⟩ := bind_eq_ok_iff.mp found
  exact of_follow hereditary follows whole

end Path

namespace Template

variable {draws : Draws} {scope : Scope} {name : String} {value : Json}

/-- The template that is one placeholder with a name. -/
def holeOf (name : String) : String := "\x7b\x7b" ++ name ++ "\x7d\x7d"

/-- The name of a capture is a name of a placeholder, and no builtin one. -/
theorem isName_of_isIdentifier (identifier : Capture.isIdentifier name = true) :
    IsName name.toList ∧ isBuiltin name = false := by
  unfold Capture.isIdentifier at identifier
  split at identifier
  next first rest whole =>
    simp only [Bool.and_eq_true, List.all_eq_true] at identifier
    obtain ⟨starts, goesOn⟩ := identifier
    have start : isNameStart first = true := starts
    rw [isBuiltin, whole]
    refine ⟨.plain start fun c member => ?_, ?_⟩
    · have char := goesOn c member
      simp only [Bool.or_eq_true] at char
      simp only [isNameChar, Bool.or_eq_true]
      tauto
    · have apart : first ≠ '$' := by
        rintro rfl
        exact absurd start (by decide)
      simpa using apart
  · cases identifier

theorem toList_holeOf (name : String) :
    (holeOf name).toList = '\x7b' :: '\x7b' :: ([] ++ (name.toList ++ ([] ++ ['\x7d', '\x7d']))) := by
  rw [holeOf, String.toList_append, String.toList_append]
  rfl

theorem isHole_holeOf (named : IsName name.toList) : IsHole (holeOf name).toList name := by
  have isHole : IsHole (holeOf name).toList (String.ofList name.toList) := by
    rw [toList_holeOf]
    exact .braced (by simp) named (by simp)
  rwa [String.ofList_toList] at isHole

theorem pieces_holeOf (named : IsName name.toList) : pieces (holeOf name) = [.hole name] :=
  (isHole_holeOf named).pieces_eq

/-- A placeholder is written on one line, without blanks around it. -/
theorem isGiven_holeOf (named : IsName name.toList) : Assertion.IsGiven (holeOf name).toList := by
  have run {rest : List Char} (goesOn : ∀ c ∈ rest, isNameChar c = true) : '\n' ∉ rest := fun member =>
    absurd (goesOn _ member) (by decide)
  have start {first : Char} (starts : isNameStart first = true) : '\n' ≠ first := by
    rintro rfl
    exact absurd starts (by decide)
  have single : '\n' ∉ name.toList := by
    generalize name.toList = letters at named
    cases named with
    | plain starts goesOn => simpa using ⟨start starts, run goesOn⟩
    | marked starts goesOn => simpa using ⟨start starts, run goesOn⟩
  have parts : (holeOf name).toList = '\x7b' :: ('\x7b' :: name.toList) ++ ['\x7d', '\x7d'] := by
    rw [toList_holeOf]
    simp
  refine ⟨?_, ?_⟩
  · rw [parts]
    exact isTrimmed_append (by decide) (by simp) (by decide)
  · rw [parts]
    simpa using single

theorem soleHole?_holeOf (named : IsName name.toList) : soleHole? (trimmed (holeOf name)) = some name := by
  have trimmed : trimmed (holeOf name) = holeOf name := by
    rw [Text.trimmed, (isGiven_holeOf named).trimmed, String.ofList_toList]
  rw [trimmed, soleHole?_eq_some_iff]
  exact isHole_holeOf named

theorem hasHoles_holeOf (named : IsName name.toList) : hasHoles (holeOf name) = true := by
  rw [hasHoles, names, pieces_holeOf named]
  rfl

theorem lookup_captured (plain : isBuiltin name = false) (held : scope.captured.find? name = some value) :
    lookup draws scope name = .ok (value, .captured) := by
  simp [lookup, plain, Scope.find?, held]

/-- A placeholder stands for the value that is captured under its name. -/
theorem resolveValue_captured (named : IsName name.toList) (plain : isBuiltin name = false)
    (held : scope.captured.find? name = some value) : resolveValue draws scope (holeOf name) = .ok value := by
  rw [resolveValue, soleHole?_holeOf named]
  dsimp only
  rw [lookup_captured plain held]
  rfl

theorem find?_captured_capture (scope : Scope) (name : String) (value : Json) :
    (scope.capture name value).captured.find? name = some value := by
  simp [Scope.capture]

theorem lookup_capture (plain : isBuiltin name = false) :
    lookup draws (scope.capture name value) name = .ok (value, .captured) :=
  lookup_captured plain (find?_captured_capture scope name value)

/-- A placeholder with the name of a capture stands for the value captured, whatever else has that name. -/
theorem resolveValue_capture (named : IsName name.toList) (plain : isBuiltin name = false) :
    resolveValue draws (scope.capture name value) (holeOf name) = .ok value :=
  resolveValue_captured named plain (find?_captured_capture scope name value)

theorem resolve_capture (named : IsName name.toList) (plain : isBuiltin name = false) :
    resolve draws (scope.capture name value) (holeOf name) = .ok value.render := by
  rw [resolve, pieces_holeOf named, fill, lookup_capture plain]
  simp [fill, bind, Except.bind, pure, Except.pure]

end Template

theorem Double.same_ofRatio (negative : Bool) (num den : Nat) :
    (Double.ofRatio negative num den).same (Double.ofRatio negative num den) = true := by
  unfold Double.ofRatio
  split
  · exact beq_self_eq_true _
  · dsimp only
    split <;> split <;> exact beq_self_eq_true _

namespace Assertion

variable {draws : Template.Draws} {scope : Scope} {name path : String} {value : Json}

/-- A finite value equals itself, whatever its kind. -/
theorem equalsValue_self (finite : value.Finite) : equalsValue value value = true := by
  cases value with
  | int n => exact Double.same_ofRatio _ _ _
  | real x => exact Json.same_self_real finite
  | null | bool | string | array | object => exact Json.Finite.same_self finite

/-- Behind the mark of the body every path that can be read is the path of the subject. -/
theorem readSubject_body {segments : List Segment} (parsed : Path.parse path = .ok segments) :
    readSubject ("body.".toList ++ path.toList) = .ok (.body path) := by
  have dotted {word : String} (same : String.ofList ("body.".toList ++ path.toList) = word) :
      word.toList[4]? = some '.' := by
    rw [← same, String.toList_ofList]
    rfl
  have header : afterFront? "header.".toList ("body.".toList ++ path.toList) = none := rfl
  have body : afterFront? "body".toList ("body.".toList ++ path.toList) = some ('.' :: path.toList) := rfl
  have dot : afterFront? ['.'] ('.' :: path.toList) = some path.toList := rfl
  unfold readSubject
  split
  next same => exact absurd (dotted same) (by decide)
  next same => exact absurd (dotted same) (by decide)
  next same => exact absurd (dotted same) (by decide)
  · simp only [header, body, dot, Option.getD_some, String.ofList_toList, parsed]

/-- Whether a path can stand behind the mark of the body is decided character by character. -/
theorem plain_of_all (all : (path.toList.all fun c => !isBlank c && c ∉ ['=', '!', '<', '>']) = true) :
    ∀ c ∈ path.toList, isBlank c = false ∧ c ∉ ['=', '!', '<', '>'] := by
  simpa only [List.all_eq_true, Bool.and_eq_true, Bool.not_eq_true', decide_eq_true_iff] using all

/-- Behind the mark of the body a path is part of the left-hand side, where neither blanks nor operators stand in it. -/
theorem isSide_body (plain : ∀ c ∈ path.toList, isBlank c = false ∧ c ∉ ['=', '!', '<', '>']) :
    IsSide ("body.".toList ++ path.toList) := by
  refine .tail (by decide) (fun c member => ?_) fun header => absurd header (by decide)
  obtain ⟨solid, apart⟩ := plain c member
  simp [isSubjectChar, isOperatorChar, solid]
  simpa using apart

theorem readLiteral_holeOf {subject : Subject} (named : Template.IsName name.toList) :
    readLiteral subject (Template.holeOf name).toList = .ok (.template (Template.holeOf name)) := by
  have unquoted : unquoted? (Template.holeOf name).toList = none := by
    rw [Template.toList_holeOf]
    rfl
  unfold readLiteral
  rw [String.ofList_toList, Template.hasHoles_holeOf named, unquoted]
  simp

/-- The line that compares a part of the body with a right-hand side. -/
theorem lineOf_body {operator : Operator} {sign : String} (compares : operator.isPresence = false)
    (written : sign.toList = ' ' :: (operator.text.toList ++ [' '])) (right : String) :
    lineOf ("body.".toList ++ path.toList) operator right.toList = "body." ++ path ++ sign ++ right := by
  rw [← String.toList_inj, lineOf, String.toList_ofList, comparisonText, compares]
  simp [String.toList_append, written]

/-- A part of the body is compared with a right-hand side in a line with either of the two signs. -/
theorem parse_body {segments : List Segment} {literal : Literal} {right : String}
    (plain : ∀ c ∈ path.toList, isBlank c = false ∧ c ∉ ['=', '!', '<', '>'])
    (parsed : Path.parse path = .ok segments) (stands : IsGiven right.toList) (filled : right.toList ≠ [])
    (written : readLiteral (.body path) right.toList = .ok literal) :
    parse ("body." ++ path ++ " == " ++ right) =
        .ok (between (.body path) literal ("body.".toList ++ path.toList) right.toList .equal) ∧
      parse ("body." ++ path ++ " != " ++ right) =
        .ok (between (.body path) literal ("body.".toList ++ path.toList) right.toList .notEqual) := by
  have reads (operator : Operator) :=
    parse_lineOf (isSide_body plain) stands filled (readSubject_body parsed) written operator
  have equality : lineOf ("body.".toList ++ path.toList) .equal right.toList = "body." ++ path ++ " == " ++ right :=
    lineOf_body rfl rfl right
  have inequality : lineOf ("body.".toList ++ path.toList) .notEqual right.toList = "body." ++ path ++ " != " ++ right :=
    lineOf_body rfl rfl right
  exact ⟨equality ▸ reads .equal, inequality ▸ reads .notEqual⟩

/-- A comparison of two values that are there is judged by the values. -/
theorem evaluate_between {facts : Facts} {subject : Subject} {literal : Literal} {expected : Expected}
    {operator : Operator} (compares : operator.isPresence = false) (held : actual facts subject = .ok value)
    (expects : expectedOf draws scope subject literal = .ok expected) (left right : List Char) :
    (evaluate draws scope (some facts) (between subject literal left right operator)).pass =
      (compare operator value expected).pass := by
  rw [Bool.eq_iff_iff, evaluate_comparison draws scope facts subject literal left right compares]
  constructor
  · rintro ⟨other, again, actually, expected', passes⟩
    cases held.symm.trans actually
    cases expects.symm.trans expected'
    exact passes
  · exact fun passes => ⟨value, expected, held, expects, passes⟩

/-- A part of a JSON body is the value that its path leads to. -/
theorem actual_body {facts : Facts} {body : Json} (isJson : facts.json = some body)
    (found : Path.find body path = .ok value) : actual facts (.body path) = .ok value := by
  simp only [actual, isJson, found]
  rfl

/-- A part of the body passes against a right-hand side where the two are equal, and the assertion that they differ
passes where they are not. -/
theorem evaluate_body {facts : Facts} {body : Json} {literal : Literal} {expected : Expected}
    (isJson : facts.json = some body) (found : Path.find body path = .ok value)
    (expects : expectedOf draws scope (.body path) literal = .ok expected) (left right : List Char) :
    (evaluate draws scope (some facts) (between (.body path) literal left right .equal)).pass =
        equals value expected ∧
      (evaluate draws scope (some facts) (between (.body path) literal left right .notEqual)).pass =
        !equals value expected := by
  have held := actual_body isJson found
  rw [evaluate_between rfl held expects, evaluate_between rfl held expects, compare_notEqual, compare_equal]
  exact ⟨rfl, rfl⟩

/-- A part of the body that is captured under a name equals the placeholder with that name. -/
theorem compare_captured {facts : Facts} {body : Json} (isJson : facts.json = some body)
    (found : Path.find body path = .ok value) (finite : value.Finite)
    (filled : Template.resolveValue draws scope (Template.holeOf name) = .ok value) (left right : List Char) :
    (evaluate draws scope (some facts)
      (between (.body path) (.template (Template.holeOf name)) left right .equal)).pass = true ∧
    (evaluate draws scope (some facts)
      (between (.body path) (.template (Template.holeOf name)) left right .notEqual)).pass = false := by
  obtain ⟨expected, expects, equal⟩ : ∃ expected,
      expectedOf draws scope (.body path) (.template (Template.holeOf name)) = .ok expected ∧
        equals value expected = true := by
    have same : equals value (.value value) = true := equalsValue_self finite
    cases value with
    | string text => exact ⟨.text text, by simp [expectedOf, filled], beq_self_eq_true _⟩
    | null | bool | int | real | array | object => exact ⟨_, by simp only [expectedOf, filled], same⟩
  obtain ⟨passes, fails⟩ := evaluate_body isJson found expects left right
  rw [passes, fails, equal]
  exact ⟨rfl, rfl⟩

end Assertion

theorem Capture.of_check {name path : String} (accepted : check name path = .ok ()) (bodily : headerName? path = none) :
    isIdentifier name = true ∧ ∃ segments, Path.parse path = .ok segments := by
  unfold check at accepted
  rw [bodily] at accepted
  split at accepted
  · cases accepted
  next identifier =>
  refine ⟨by simpa using identifier, ?_⟩
  split at accepted
  · cases accepted
  cases parsed : Path.parse path with
  | ok segments => exact ⟨segments, rfl⟩
  | error => simp [parsed] at accepted

/-- Capture, placeholder and assertion agree: after a capture takes a value out of a JSON body, the placeholder with its
name stands for that value, with its kind, and for its text in a text. The path of the capture equals the placeholder in
an assertion about that body and does not differ from it, whatever the scope had under the name before. -/
theorem captured_agrees {name path : String} (accepted : Capture.check name path = .ok ())
    (bodily : Capture.headerName? path = none)
    (plain : ∀ c ∈ path.toList, isBlank c = false ∧ c ∉ ['=', '!', '<', '>']) {reply : Reply} {body value : Json}
    (isJson : reply.json? = some body) (resolves : Path.extract body path = .ok value) (scope : Scope)
    (draws : Template.Draws) :
    let after := scope.capture name value
    let hole := "\x7b\x7b" ++ name ++ "\x7d\x7d"
    Engine.takeCaptures reply reply.json? [⟨name, path⟩] scope = (after, [(name, value)]) ∧
      Template.resolveValue draws after hole = .ok value ∧ Template.resolve draws after hole = .ok value.render ∧
      ∃ equality inequality, Assertion.parse ("body." ++ path ++ " == " ++ hole) = .ok equality ∧
        Assertion.parse ("body." ++ path ++ " != " ++ hole) = .ok inequality ∧
        (Assertion.evaluate draws after (some (Engine.facts reply reply.json?)) equality).pass = true ∧
        (Assertion.evaluate draws after (some (Engine.facts reply reply.json?)) inequality).pass = false := by
  obtain ⟨identifier, segments, parsed⟩ := Capture.of_check accepted bodily
  obtain ⟨named, own⟩ := Template.isName_of_isIdentifier identifier
  have found := mapError_eq_ok_iff.mp resolves
  have finite := Path.of_find Json.hereditary_finite found (Json.finite_of_parse? isJson)
  have filled := @Template.resolveValue_capture draws scope name value named own
  have filledLine : (Template.holeOf name).toList ≠ [] := by simp [Template.toList_holeOf]
  obtain ⟨equality, inequality⟩ := Assertion.parse_body plain parsed (Template.isGiven_holeOf named) filledLine
    (Assertion.readLiteral_holeOf named)
  have held : (Engine.facts reply reply.json?).json = some body := isJson
  have passes := Assertion.compare_captured held found finite filled ("body.".toList ++ path.toList)
    (Template.holeOf name).toList
  intro after hole
  refine ⟨?_, filled, Template.resolve_capture named own, _, _, equality, inequality, passes⟩
  have taken : Capture.take (some body) reply.headers path = .ok value := by
    rw [Capture.take, bodily]
    exact resolves
  simp only [Engine.takeCaptures, List.foldl_cons, List.foldl_nil, isJson, taken]
  rfl

/-- An order that is paid. -/
def paidOrder : Json := .object [("order", .object [("paid", .bool true)])]

/-- A reply with the order. -/
def paidReply : Reply := { status := 200, body := "\x7b\"order\":\x7b\"paid\":true\x7d\x7d" }

/-- A scope that has something else under the name of a capture, in its environment and captured before. -/
def staleScope : Scope := { captured := [("paid", .null)], environment := [("paid", "no")] }

theorem paid_agrees :
    Capture.check "paid" "order.paid" = .ok () ∧ Capture.headerName? "order.paid" = none ∧
      (∀ c ∈ "order.paid".toList, isBlank c = false ∧ c ∉ ['=', '!', '<', '>']) ∧
      paidReply.json? = some paidOrder ∧ Path.extract paidOrder "order.paid" = .ok (.bool true) ∧
      Template.resolveValue {} (staleScope.capture "paid" (.bool true)) ("\x7b\x7b" ++ "paid" ++ "\x7d\x7d") =
        .ok (.bool true) ∧
      ∃ equality, Assertion.parse ("body." ++ "order.paid" ++ " == " ++ ("\x7b\x7b" ++ "paid" ++ "\x7d\x7d")) =
          .ok equality ∧
        (Assertion.evaluate {} (staleScope.capture "paid" (.bool true))
          (some (Engine.facts paidReply paidReply.json?)) equality).pass = true := by
  have accepted : Capture.check "paid" "order.paid" = .ok () := by rfl
  have bodily : Capture.headerName? "order.paid" = none := by rfl
  have plain : ∀ c ∈ "order.paid".toList, isBlank c = false ∧ c ∉ ['=', '!', '<', '>'] := Assertion.plain_of_all rfl
  have isJson : paidReply.json? = some paidOrder := by
    have text : paidReply.body = paidOrder.compact := by decide +kernel
    have writable : paidOrder.Writable := by simp [paidOrder, Json.Writable, Json.WritableFields]
    rw [Reply.json?, Json.parse?, text, Json.read?_compact writable (by decide)]
    rfl
  have resolves : Path.extract paidOrder "order.paid" = .ok (.bool true) := by rfl
  obtain ⟨-, filled, -, equality, -, reads, -, passes, -⟩ :=
    captured_agrees accepted bodily plain isJson resolves staleScope {}
  exact ⟨accepted, bodily, plain, isJson, resolves, filled, equality, reads, passes⟩

end Runbook

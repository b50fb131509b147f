import Runbook.Proofs.Assertion.Ordering
import Runbook.Proofs.Template.Substitution

/-!
Thresholds that are written out and thresholds that are captured. A duration or a number in a text means the same to a
comparison whether the text stands in the line of the assertion or is put in for a placeholder when it is judged.
-/

namespace Runbook.Assertion

open Runbook.Text

variable {operator : Operator} {side right : List Char} {subject : Subject} {size : Double}

/-! Literals of plain characters -/

/-- A duration is a literal number of milliseconds where durations are compared. -/
theorem readLiteral_millis (trimmed : IsTrimmed side) (read : Duration.millis? side = some size) :
    readLiteral .duration side = .ok (.number size) := by
  obtain ⟨-, ⟨c, first, digit⟩, all⟩ := Duration.of_millis? read
  rw [show trim side = side from trimmed] at first all
  have holeless : Template.hasHoles (String.ofList side) = false := by
    refine Template.hasHoles_eq_false fun brace => ?_
    rw [String.toList_ofList] at brace
    exact absurd (all _ brace) (by decide)
  have bare : unquoted? side = none := by
    refine unquoted?_eq_none fun d again => ?_
    cases first.symm.trans again
    constructor <;> rintro rfl <;> exact absurd digit (by decide)
  unfold readLiteral
  simp only [holeless, bare, Option.getD_none, read, Bool.false_eq_true, if_false, if_true]

theorem isBlank_eq_false_of_isDecimalChar {c : Char} (decimal : Double.isDecimalChar c = true) :
    isBlank c = false := by
  rcases Bool.or_eq_true_iff.mp decimal with digit | sign
  · exact isBlank_eq_false_of_isDigit digit
  · have signs : (['.', 'e', 'E', '+', '-'].all fun c => !isBlank c) = true := by decide
    simpa using List.all_eq_true.mp signs c (by simpa using sign)

/-- A text that is read as a real number is one word. -/
theorem isSolid_of_read? (read : Double.read? side = some size) (finite : size.isFinite = true) : IsSolid side := by
  refine ⟨?_, fun c member => isBlank_eq_false_of_isDecimalChar ((Double.of_read? read finite).1 c member)⟩
  rintro rfl
  cases read

/-- A decimal is a literal number where other values are compared. -/
theorem readLiteral_decimal (other : subject ≠ .duration) (read : Double.read? side = some size)
    (finite : size.isFinite = true) : readLiteral subject side = .ok (.number size) := by
  obtain ⟨all, -⟩ := Double.of_read? read finite
  have absent {c : Char} (strange : Double.isDecimalChar c = false) : c ∉ side := fun member => by
    rw [all c member] at strange
    cases strange
  have holeless : Template.hasHoles (String.ofList side) = false := by
    refine Template.hasHoles_eq_false ?_
    rw [String.toList_ofList]
    exact absent (by decide)
  have bare : unquoted? side = none := by
    refine unquoted?_eq_none fun c first => ?_
    have member := List.mem_of_mem_head? first
    constructor <;> rintro rfl <;> exact absent (by decide) member
  have wordless {word : String} (letter : ∃ c ∈ word.toList, Double.isDecimalChar c = false) :
      (String.ofList side == word) = false := by
    obtain ⟨c, member, strange⟩ := letter
    refine beq_eq_false_iff_ne.mpr ?_
    rintro rfl
    exact absent strange (by simpa using member)
  unfold readLiteral
  simp only [holeless, bare, other, Bool.false_eq_true, if_false, readLiteral.bare, read,
    @wordless "true" ⟨'t', by decide, by decide⟩, @wordless "false" ⟨'f', by decide, by decide⟩,
    @wordless "null" ⟨'n', by decide, by decide⟩]

/-! Lines with blanks around their right-hand side -/

/-- The right-hand side is read without the blanks around it. -/
theorem takeComparison_padded (compares : operator.isPresence = false) (single : '\n' ∉ right) :
    takeComparison (comparisonText operator right) = some (operator, trim right) := by
  have solid : (operator.text.toList ++ ' ' :: right).dropWhile isBlank = operator.text.toList ++ ' ' :: right := by
    cases operator <;> rfl
  have plain : (trim right).contains '\n' = false := by
    simpa using fun member => single (mem_of_mem_trim member)
  unfold takeComparison comparisonText
  simp only [compares, Bool.false_eq_true, if_false]
  rw [List.dropWhile_cons_of_pos (by decide), solid, takeOperator_text (by simp)]
  simp only [trim_cons (show isBlank ' ' = true by decide), plain, Bool.false_eq_true, if_false]

/-- A line that compares the duration splits at its operator, whatever blanks the right-hand side has around it. -/
theorem takeParts_duration (compares : operator.isPresence = false) (single : '\n' ∉ right) :
    takeParts (lineOf "duration".toList operator right).toList =
      some ("duration".toList, operator, trim right) := by
  have front : ("duration".toList ++ comparisonText operator right).dropWhile isBlank =
      "duration".toList ++ comparisonText operator right := rfl
  have word : takeWord ("duration".toList ++ comparisonText operator right) "duration" =
      some ("duration".toList, operator, trim right) := by
    unfold takeWord
    rw [afterFront?_eq_some_iff.mpr rfl]
    simp [takeComparison_padded compares single]
  rw [lineOf, String.toList_ofList, takeParts_eq, front, takeSides,
    takeWord_eq_none (c := 'd') (d := 's') rfl rfl (by decide), word]
  rfl

/-- A line is read from its parts. -/
theorem parse_of_takeParts {line : String} {left : List Char} {literal : Literal}
    (parts : takeParts line.toList = some (left, operator, right)) (compares : operator.isPresence = false)
    (filled : right ≠ []) (named : readSubject left = .ok subject) (written : readLiteral subject right = .ok literal) :
    parse line = .ok ⟨subject, operator, some literal, trimmed line⟩ := by
  have full : right.isEmpty = false := List.isEmpty_eq_false_iff.mpr filled
  simp [parse, parts, named, compares, full, written, bind, Except.bind, pure, Except.pure]

/-! Judging by an expected value -/

variable {draws : Template.Draws} {scope : Scope}

/-- Two lines are assertions that pass together, whatever values are generated for them and whatever the response is. -/
def PassAlike (scope : Scope) (first second : String) : Prop :=
  ∃ left right, parse first = .ok left ∧ parse second = .ok right ∧
    ∀ (draws other : Template.Draws) (response : Option Facts),
      (evaluate draws scope response left).pass = (evaluate other scope response right).pass

/-- Whether a comparison passes depends on nothing but the value of its subject and its right-hand side. -/
theorem pass_of_expectedOf {assertion : Assertion} {literal : Literal} {expected : Expected}
    (compares : assertion.operator.isPresence = false) (literally : assertion.expected = some literal)
    (expects : expectedOf draws scope assertion.subject literal = .ok expected) (response : Option Facts) :
    (evaluate draws scope response assertion).pass =
      (response.bind fun facts => (actual facts assertion.subject).toOption).any fun value =>
        (compare assertion.operator value expected).pass := by
  cases response with
  | none => rfl
  | some facts =>
    rw [Bool.eq_iff_iff, pass_evaluate, judge_comparison compares literally, Option.bind_some]
    cases actual facts assertion.subject with
    | error cause => simp [Except.toOption]
    | ok value => simp [expects, Except.toOption]

/-- Numbers at one place are in the same order with every double. -/
theorem inOrder_congr {first second : Double} (left : first.IsNumber) (right : second.IsNumber)
    (same : first.place = second.place) (number : Double) :
    inOrder operator number first = inOrder operator number second := by
  by_cases isNumber : number.IsNumber
  · unfold inOrder
    cases operator with
    | less => simp only [Bool.eq_iff_iff, Double.less_iff isNumber left, Double.less_iff isNumber right, same]
    | atMost => simp only [Bool.eq_iff_iff, Double.atMost_iff isNumber left, Double.atMost_iff isNumber right, same]
    | greater => simp only [Bool.eq_iff_iff, Double.less_iff left isNumber, Double.less_iff right isNumber, same]
    | equal | notEqual | atLeast | present | absent =>
      simp only [Bool.eq_iff_iff, Double.atMost_iff left isNumber, Double.atMost_iff right isNumber, same]
  · cases number with
    | finite | infinite => exact absurd trivial isNumber
    | notANumber => cases operator <;> cases first <;> cases second <;> rfl

/-- A number is ordered alike with a literal number and with the text of this number. -/
theorem compare_text {text : String} (orders : operator.isOrdering = true)
    (read : Double.read? (trim text.toList) = some size) (finite : size.isFinite = true) (value : Json) :
    (compare operator value (.value (numberValue size))).pass = (compare operator value (.text text)).pass := by
  have grid := (Double.of_read? read finite).2
  obtain ⟨other, literal, isOther, place⟩ := exists_number?_numberValue finite grid
  cases numeric : value.number? with
  | none => simp only [compare, orders, if_true, numeric]
  | some number =>
    have written : (Expected.value (numberValue size)).number? = some other := literal
    have captured : (Expected.text text).number? = some size := read
    rw [compare_ordering orders numeric written, compare_ordering orders numeric captured,
      inOrder_congr isOther (.of_isFinite finite) place]

section

variable {name text : String} (named : Template.IsName name.toList) (plain : Template.isBuiltin name = false)
  (held : scope.captured.find? name = some (.string text))
include named plain held

/-- A duration is the same bound written out and captured. -/
theorem durations_agree (read : Duration.millis? text.toList = some size) (single : '\n' ∉ text.toList)
    (compares : operator.isPresence = false) :
    PassAlike scope (lineOf "duration".toList operator text.toList)
      (lineOf "duration".toList operator (Template.holeOf name).toList) := by
  have again : Duration.millis? (trim text.toList) = some size := by
    have twice : trim (trim text.toList) = trim text.toList := isTrimmed_trim _
    rw [← read, Duration.millis?, Duration.millis?, twice]
  have filled : trim text.toList ≠ [] := by
    obtain ⟨-, ⟨c, first, -⟩, -⟩ := Duration.of_millis? read
    rintro none
    rw [none] at first
    cases first
  have literal := parse_of_takeParts (takeParts_duration compares single) compares filled rfl
    (readLiteral_millis (isTrimmed_trim _) again)
  have side : IsSide "duration".toList := .word (by decide)
  have subject : readSubject "duration".toList = .ok .duration := rfl
  have captured := parse_lineOf side (Template.isGiven_holeOf named) (by simp [Template.toList_holeOf]) subject
    (readLiteral_holeOf named) operator
  refine ⟨_, _, literal, captured, fun draws other response => ?_⟩
  have expects : expectedOf other scope .duration (.template (Template.holeOf name)) =
      .ok (.value (numberValue size)) := by
    simp [expectedOf, Template.resolveValue_captured named plain held, read]
  rw [pass_of_expectedOf compares rfl rfl,
    pass_of_expectedOf compares (expected_between _ _ _ _ compares) expects]
  rfl

/-- A number is in the same order with other values written out and captured. -/
theorem numbers_agree (read : Double.read? text.toList = some size) (finite : size.isFinite = true)
    (orders : operator.isOrdering = true) {left : List Char} (side : IsSide left)
    (names : readSubject left = .ok subject) (other : subject ≠ .duration) :
    PassAlike scope (lineOf left operator text.toList) (lineOf left operator (Template.holeOf name).toList) := by
  have compares : operator.isPresence = false := by
    cases operator <;> first | rfl | cases orders
  have solid := isSolid_of_read? read finite
  have trimmed : trim text.toList = text.toList := solid.isTrimmed
  have stands : IsGiven text.toList := ⟨solid.isTrimmed, solid.not_mem (by decide)⟩
  have literal := parse_lineOf side stands solid.ne_nil names (readLiteral_decimal other read finite) operator
  have captured := parse_lineOf side (Template.isGiven_holeOf named) (by simp [Template.toList_holeOf]) names
    (readLiteral_holeOf named) operator
  refine ⟨_, _, literal, captured, fun draws later response => ?_⟩
  have expects : expectedOf later scope subject (.template (Template.holeOf name)) = .ok (.text text) := by
    simp [expectedOf, Template.resolveValue_captured named plain held, other]
  have literally (literal : Literal) := expected_between subject literal left
  rw [pass_of_expectedOf compares (expected_between _ _ _ _ compares) rfl,
    pass_of_expectedOf compares (expected_between _ _ _ _ compares) expects]
  exact congrArg (Option.any · _) (funext fun value => compare_text orders (trimmed.symm ▸ read) finite value)

end

/-- A threshold is the same written out and captured. Where a name stands for a captured text, a text that writes a
duration on one line bounds the duration, with every comparison, as the placeholder of the name does; and a text that
writes a real number is in the same order as this placeholder with every other left-hand side: the status, a part of
the body or the whole, whatever its value is, and a header. -/
theorem thresholds_agree {name text : String} (named : Template.IsName name.toList)
    (plain : Template.isBuiltin name = false) {scope : Scope}
    (held : scope.captured.find? name = some (.string text)) :
    let hole := (Template.holeOf name).toList
    (∀ size, Duration.millis? text.toList = some size → '\n' ∉ text.toList →
      ∀ operator : Operator, operator.isPresence = false →
        PassAlike scope (lineOf "duration".toList operator text.toList) (lineOf "duration".toList operator hole)) ∧
    ∀ size, Double.read? text.toList = some size → size.isFinite = true →
      ∀ operator : Operator, operator.isOrdering = true →
        ∀ left subject, IsSide left → readSubject left = .ok subject → subject ≠ .duration →
          PassAlike scope (lineOf left operator text.toList) (lineOf left operator hole) :=
  ⟨fun _ read single _ compares => durations_agree named plain held read single compares,
    fun _ read finite _ orders _ _ side names other =>
      numbers_agree named plain held read finite orders side names other⟩

/-- A scope that holds a duration and a number as texts. -/
def boundScope : Scope := { captured := [("limit", .string " 1.5 s"), ("price", .string "1.5e2")] }

/-- The bounds of this scope are the same bounds written out, for the duration, the status and a part of the body. -/
theorem bounds_agree :
    Template.IsName "limit".toList ∧ Template.isBuiltin "limit" = false ∧
      boundScope.captured.find? "limit" = some (.string " 1.5 s") ∧
      PassAlike boundScope "duration !=  1.5 s" "duration != \x7b\x7blimit\x7d\x7d" ∧
      Template.IsName "price".toList ∧ Template.isBuiltin "price" = false ∧
      boundScope.captured.find? "price" = some (.string "1.5e2") ∧
      PassAlike boundScope "status < 1.5e2" "status < \x7b\x7bprice\x7d\x7d" ∧
      PassAlike boundScope "body.items[0].price >= 1.5e2" "body.items[0].price >= \x7b\x7bprice\x7d\x7d" := by
  have limit := Template.isName_of_isIdentifier (show Capture.isIdentifier "limit" = true by decide)
  have price := Template.isName_of_isIdentifier (show Capture.isIdentifier "price" = true by decide)
  have captured : boundScope.captured.find? "limit" = some (.string " 1.5 s") := by rfl
  have bound : boundScope.captured.find? "price" = some (.string "1.5e2") := by rfl
  obtain ⟨durations, -⟩ := thresholds_agree limit.1 limit.2 captured
  obtain ⟨-, numbers⟩ := thresholds_agree price.1 price.2 bound
  have time : Duration.millis? " 1.5 s".toList = some (.finite false 6597069766656000 (-42)) := by rfl
  have number : Double.read? "1.5e2".toList = some (.finite false 5277655813324800 (-45)) := by rfl
  refine ⟨limit.1, limit.2, captured, ?_, price.1, price.2, bound, ?_, ?_⟩
  · exact durations _ time (by decide) .notEqual rfl
  · exact numbers _ number rfl .less rfl _ .status (.word (by decide : "status" ∈ _)) rfl (by decide)
  · exact numbers _ number rfl .atLeast rfl "body.items[0].price".toList (.body "items[0].price")
      (.tail (by decide : "body." ∈ _) (List.all_eq_true.mp (by decide)) (by decide)) rfl (by decide)

end Runbook.Assertion

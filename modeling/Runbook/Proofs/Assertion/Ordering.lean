import Runbook.Proofs.Assertion.Captured
import Runbook.Proofs.Double.Order

/-!
Comparing numbers. The operators of an assertion are the relations of one order: equality and the orderings judge the
same two numbers, whether a number of the body or of a literal counts as an integer or as a double.
-/

namespace Runbook

open Runbook.Text

namespace Duration

/-- A character of a duration. -/
def isDurationChar (c : Char) : Bool := isDigit c || isBlank c || ['.', 'm', 's'].contains c

/-- The milliseconds of a decimal with a unit behind it. -/
def scaled? (number unit : List Char) : Option Double := do
  let value ← Double.magnitude? false number
  let scale ← unit? (unit.dropWhile isBlank)
  return if scale = 1 then value else value.mul (Double.ofInt scale)

theorem isDurationChar_of_unit? {text : List Char} {scale : Nat} (read : unit? text = some scale) :
    ∀ c ∈ text, isDurationChar c = true := by
  unfold unit? at read
  split at read
  · simp
  · exact List.all_eq_true.mp (by decide)
  · exact List.all_eq_true.mp (by decide)
  · cases read

theorem of_scaled? {number unit : List Char} {value : Double} (read : scaled? number unit = some value) :
    value.OnGrid ∧ ∀ c ∈ unit, isDurationChar c = true := by
  simp only [scaled?, Option.bind_eq_bind, Option.bind_eq_some_iff] at read
  obtain ⟨size, written, scale, measured, same⟩ := read
  obtain ⟨-, coefficient, power, rfl⟩ := Double.of_magnitude? written
  cases same
  constructor
  · split
    · exact Double.onGrid_ofDecimal _ _ _
    · exact Double.onGrid_mul _ _
  · rw [← List.takeWhile_append_dropWhile (p := isBlank) (l := unit)]
    refine List.forall_mem_append.mpr ⟨fun c member => ?_, isDurationChar_of_unit? measured⟩
    simp [isDurationChar, List.mem_takeWhile_imp member]

/-- A duration starts with a digit, has the characters of one and is rounded on a grid. -/
theorem of_millis? {text : List Char} {value : Double} (read : millis? text = some value) :
    value.OnGrid ∧ (∃ c ∈ (trim text).head?, isDigit c = true) ∧ ∀ c ∈ trim text, isDurationChar c = true := by
  have digits (text : List Char) : ∀ c ∈ text.takeWhile isDigit, isDurationChar c = true := fun c member => by
    simp [isDurationChar, List.mem_takeWhile_imp member]
  unfold millis? at read
  dsimp only at read
  generalize trim text = inner at read ⊢
  split at read
  · cases read
  next filled =>
  have starts : ∃ c ∈ inner.head?, isDigit c = true := by
    cases inner with
    | nil => exact absurd rfl filled
    | cons c rest =>
      refine ⟨c, rfl, ?_⟩
      by_contra other
      simp [other] at filled
  split at read
  · next more split =>
    split at read
    · cases read
    · have same : scaled? (inner.takeWhile isDigit ++ '.' :: more.takeWhile isDigit) (more.dropWhile isDigit) =
          some value := read
      obtain ⟨grid, unit⟩ := of_scaled? same
      refine ⟨grid, starts, ?_⟩
      rw [← List.takeWhile_append_dropWhile (p := isDigit) (l := inner), split,
        ← List.takeWhile_append_dropWhile (p := isDigit) (l := more)]
      exact List.forall_mem_append.mpr ⟨digits inner,
        List.forall_mem_cons.mpr ⟨by decide, List.forall_mem_append.mpr ⟨digits more, unit⟩⟩⟩
  · have same : scaled? (inner.takeWhile isDigit) (inner.dropWhile isDigit) = some value := read
    obtain ⟨grid, unit⟩ := of_scaled? same
    refine ⟨grid, starts, ?_⟩
    rw [← List.takeWhile_append_dropWhile (p := isDigit) (l := inner)]
    exact List.forall_mem_append.mpr ⟨digits inner, unit⟩

end Duration

namespace Assertion

variable {draws : Template.Draws} {scope : Scope} {subject : Subject} {value : Json}

/-- A literal number is rounded on a grid. -/
theorem onGrid_of_readLiteral {side : List Char} {number : Double}
    (read : readLiteral subject side = .ok (.number number)) (finite : number.isFinite = true) : number.OnGrid := by
  unfold readLiteral at read
  dsimp only at read
  split at read
  · cases read
  split at read
  · split at read
    · next measured =>
      cases read
      exact (Duration.of_millis? measured).1
    · cases read
  split at read
  · cases read
  · simp only [readLiteral.bare, Except.ok.injEq] at read
    split at read
    · cases read
    split at read
    · cases read
    split at read
    · cases read
    split at read
    · next written =>
      cases read
      exact (Double.of_read? written finite).2
    · split at read
      · split at read <;> cases read
      · cases read

/-- As a JSON value a real number stands where it stood, whether it becomes an integer or not. -/
theorem exists_number?_numberValue {number : Double} (finite : number.isFinite = true) (grid : number.OnGrid) :
    ∃ other, (numberValue number).number? = some other ∧ other.IsNumber ∧ other.place = number.place := by
  have unchanged : ∃ other, (Json.ofDouble number).number? = some other ∧ other.IsNumber ∧
      other.place = number.place := by
    rw [Json.ofDouble, if_pos finite]
    exact ⟨number, rfl, .of_isFinite finite, rfl⟩
  cases number with
  | infinite | notANumber => cases finite
  | finite negative mantissa exponent =>
    unfold numberValue
    split
    · next i whole =>
      split
      · next small =>
        have bound : integralBound.natAbs ≤ Nat.pow 2 53 ∧ Nat.pow 2 53 < Nat.pow 2 64 := by decide
        obtain ⟨sign, size, power, rounded, units, -⟩ := Double.exists_ofInt (i := i) (by omega)
        rw [Double.nearest_eq_self (by omega), ← Double.units_of_integer? grid whole] at units
        refine ⟨Double.ofInt i, rfl, ?_⟩
        rw [rounded, Double.place, Double.place, units]
        exact ⟨trivial, rfl⟩
      · exact unchanged
    · exact unchanged

/-! Comparisons as relations -/

/-- Two places stand as a comparison asks. -/
def Relates (operator : Operator) (first second : WithBot (WithTop Int)) : Prop :=
  match operator with
  | .equal => first = second
  | .notEqual => first ≠ second
  | .less => first < second
  | .atMost => first ≤ second
  | .greater => second < first
  | .atLeast => second ≤ first
  | .present | .absent => False

/-- Of any two places the one is less, they are the same, or the other one is less. -/
theorem existsUnique_relates (first second : WithBot (WithTop Int)) :
    ∃! operator, operator ∈ [Operator.less, .equal, .greater] ∧ Relates operator first second := by
  have among {other : Operator} (member : other ∈ [Operator.less, .equal, .greater]) :
      other = .less ∨ other = .equal ∨ other = .greater := by
    simpa using member
  rcases lt_trichotomy first second with below | same | above
  · refine ⟨.less, ⟨by decide, below⟩, fun other ⟨member, holds⟩ => ?_⟩
    rcases among member with rfl | rfl | rfl
    · rfl
    · exact absurd holds below.ne
    · exact absurd holds below.asymm
  · refine ⟨.equal, ⟨by decide, same⟩, fun other ⟨member, holds⟩ => ?_⟩
    rcases among member with rfl | rfl | rfl
    · exact absurd same (ne_of_lt holds)
    · rfl
    · exact absurd same (ne_of_gt holds)
  · refine ⟨.greater, ⟨by decide, above⟩, fun other ⟨member, holds⟩ => ?_⟩
    rcases among member with rfl | rfl | rfl
    · exact absurd holds above.asymm
    · exact absurd holds above.ne'
    · rfl

theorem compare_ordering {operator : Operator} (orders : operator.isOrdering = true) {expected : Expected}
    {first second : Double} (left : value.number? = some first) (right : expected.number? = some second) :
    (compare operator value expected).pass = inOrder operator first second := by
  simp only [compare, orders, if_true, left, right]
  cases inOrder operator first second <;> rfl

theorem equals_number {other : Json} {first second : Double} (left : value.number? = some first)
    (right : other.number? = some second) : equals value (.value other) = first.same second := by
  cases other with
  | int | real => simp only [equals, equalsValue, left, right]
  | null | bool | string | array | object => cases right

/-- Two values that are numbers compare as their places. -/
theorem compare_numbers {operator : Operator} (compares : operator.isPresence = false) {other : Json}
    {first second : Double} (left : value.number? = some first) (right : other.number? = some second)
    (isNumber : first.IsNumber) (isOther : second.IsNumber) :
    (compare operator value (.value other)).pass = true ↔ Relates operator first.place second.place := by
  have same : (compare .equal value (.value other)).pass = true ↔ first.place = second.place := by
    rw [compare_equal, equals_number left right, Double.same_iff isNumber isOther]
  have ordered (orders : operator.isOrdering = true) :
      (compare operator value (.value other)).pass = inOrder operator first second :=
    compare_ordering orders left right
  cases operator with
  | equal => exact same
  | notEqual => rw [compare_notEqual, Bool.not_eq_true', ← Bool.not_eq_true, same, Relates]
  | less => rw [ordered rfl, inOrder, Double.less_iff isNumber isOther, Relates]
  | atMost => rw [ordered rfl, inOrder, Double.atMost_iff isNumber isOther, Relates]
  | greater => rw [ordered rfl, inOrder, Double.less_iff isOther isNumber, Relates]
  | atLeast =>
    have swapped : inOrder .atLeast first second = second.atMost first := rfl
    rw [ordered rfl, swapped, Double.atMost_iff isOther isNumber, Relates]
  | present | absent => cases compares

/-- An assertion that compares a number with a literal one passes as their places are related. -/
theorem evaluate_number {facts : Facts} {assertion : Assertion} {number bound : Double}
    (compares : assertion.operator.isPresence = false) (expects : assertion.expected = some (.number bound))
    (finite : bound.isFinite = true) (grid : bound.OnGrid) (held : actual facts assertion.subject = .ok value)
    (numeric : value.number? = some number) (isNumber : number.IsNumber) :
    (evaluate draws scope (some facts) assertion).pass = true ↔
      Relates assertion.operator number.place bound.place := by
  obtain ⟨other, literal, isOther, place⟩ := exists_number?_numberValue finite grid
  rw [← place, ← compare_numbers compares numeric literal isNumber isOther, pass_evaluate,
    judge_comparison compares expects]
  constructor
  · rintro ⟨_, _, again, side, passes⟩
    cases held.symm.trans again
    cases side
    exact passes
  · exact fun passes => ⟨value, _, held, rfl, passes⟩

/-- A number of a reply is a number: the status, the duration, and every number of a JSON body. -/
theorem isNumber_of_actual {reply : Reply} {number : Double}
    (held : actual (Engine.facts reply reply.json?) subject = .ok value) (numeric : value.number? = some number) :
    number.IsNumber := by
  have finite : value.Finite := by
    cases subject with
    | status | duration =>
      cases held
      trivial
    | body path =>
      have lookup : (Engine.facts reply reply.json?).json = reply.json? := rfl
      simp only [actual, lookup] at held
      split at held
      · next body isJson =>
        exact Path.of_find Json.hereditary_finite (mapError_eq_ok_iff.mp held) (Json.finite_of_parse? isJson)
      · split at held <;> cases held
        trivial
    | header name =>
      simp only [actual] at held
      split at held <;> cases held
      trivial
  cases value with
  | int i =>
    cases numeric
    exact Double.isNumber_ofRatio _ _ _
  | real x =>
    cases numeric
    exact .of_isFinite finite
  | null | bool | string | array | object => cases numeric

/-- A line with a right-hand side compares. -/
theorem compares_of_parse {text : String} {left right : List Char} {operator : Operator} {accepted : Assertion}
    {literal : Literal} (parts : takeParts text.toList = some (left, operator, right))
    (reads : parse text = .ok accepted) (expects : accepted.expected = some literal) :
    operator.isPresence = false := by
  cases asks : operator.isPresence with
  | false => rfl
  | true =>
    simp only [parse, parts, asks, if_true, bind, Except.bind] at reads
    cases named : readSubject left with
    | error fault => simp [named] at reads
    | ok subject =>
      simp only [named] at reads
      split at reads
      · cases reads
        cases expects
      · cases reads

/-- A line with a number on the right is read as the comparison with that number, which is rounded on a grid. -/
theorem number_of_parse {text : String} {left right : List Char} {operator : Operator} {accepted : Assertion}
    {bound : Double} (parts : takeParts text.toList = some (left, operator, right)) (reads : parse text = .ok accepted)
    (expects : accepted.expected = some (.number bound)) (finite : bound.isFinite = true) :
    operator.isPresence = false ∧ right ≠ [] ∧ readSubject left = .ok accepted.subject ∧
      accepted.operator = operator ∧ readLiteral accepted.subject right = .ok (.number bound) ∧ bound.OnGrid := by
  have compares := compares_of_parse parts reads expects
  obtain ⟨filled, named, operates, literal, literally, same⟩ := parse_comparison parts reads compares
  obtain rfl := Option.some.inj (same.symm.trans expects)
  exact ⟨compares, filled, named, operates, literally, onGrid_of_readLiteral literally finite⟩

/-- Numbers are compared in one order. Where a line compares a left-hand side with a real number and this side is a
number in a reply, every operator makes an assertion of its two sides; exactly one of the assertions with `<`, `==` and
`>` passes, `<=` and `>=` pass where one of their two parts does, and `!=` passes where `==` does not. What is less than
a number is less than every number that is not less. -/
theorem numbers_ordered {text : String} {left right : List Char} {operator : Operator} {accepted : Assertion}
    {bound : Double} (parts : takeParts text.toList = some (left, operator, right)) (reads : parse text = .ok accepted)
    (expects : accepted.expected = some (.number bound)) (finite : bound.isFinite = true) {reply : Reply}
    {value : Json} {number : Double}
    (held : actual (Engine.facts reply reply.json?) accepted.subject = .ok value)
    (numeric : value.number? = some number) :
    ∃ written : Operator → Assertion,
      (∀ operator, parse (lineOf left operator right) = .ok (written operator)) ∧
      (written operator).subject = accepted.subject ∧ (written operator).operator = accepted.operator ∧
      (written operator).expected = accepted.expected ∧
      ∀ (draws : Operator → Template.Draws) (scope : Scope),
        let facts := Engine.facts reply reply.json?
        let holds := fun operator => (evaluate (draws operator) scope (some facts) (written operator)).pass
        (∃! operator, operator ∈ [Operator.less, .equal, .greater] ∧ holds operator = true) ∧
        holds .atMost = (holds .less || holds .equal) ∧
        holds .atLeast = (holds .greater || holds .equal) ∧
        holds .notEqual = !holds .equal ∧
        ∀ {line : String} {side : List Char} {wider : Assertion} {limit : Double},
          takeParts line.toList = some (left, .less, side) → parse line = .ok wider →
          wider.expected = some (.number limit) → limit.isFinite = true → bound.toRat ≤ limit.toRat →
          holds .less = true →
          ∀ (draws : Template.Draws) (scope : Scope), (evaluate draws scope (some facts) wider).pass = true := by
  obtain ⟨compares, filled, named, operates, literally, grid⟩ := number_of_parse parts reads expects finite
  obtain ⟨side, stands⟩ := sides_of_takeSides (takeParts_eq _ ▸ parts)
  have isNumber := isNumber_of_actual held numeric
  refine ⟨between accepted.subject (.number bound) left right, parse_lineOf side stands filled named literally, rfl,
    operates.symm, (expected_between _ _ _ _ compares).trans expects.symm, ?_⟩
  intro draws scope facts holds
  have passes {operator : Operator} (compares : operator.isPresence = false) :
      holds operator = true ↔ Relates operator number.place bound.place :=
    evaluate_number compares (expected_between _ _ _ _ compares) finite grid held numeric isNumber
  have less : holds .less = true ↔ number.place < bound.place := passes rfl
  have equal : holds .equal = true ↔ number.place = bound.place := passes rfl
  have greater : holds .greater = true ↔ bound.place < number.place := passes rfl
  refine ⟨?_, ?_, ?_, ?_, ?_⟩
  · have presence : ∀ operator ∈ [Operator.less, .equal, .greater], operator.isPresence = false := by decide
    exact (existsUnique_congr fun operator => and_congr_right fun member => passes (presence operator member)).mpr
      (existsUnique_relates number.place bound.place)
  · rw [Bool.eq_iff_iff, Bool.or_eq_true, less, equal, passes rfl]
    exact le_iff_lt_or_eq
  · rw [Bool.eq_iff_iff, Bool.or_eq_true, greater, equal, passes rfl, eq_comm]
    exact le_iff_lt_or_eq
  · rw [Bool.eq_iff_iff, Bool.not_eq_true', ← Bool.not_eq_true, equal, passes rfl]
    rfl
  · intro line other wider limit others accepts wants real atMost below draws scope
    obtain ⟨_, -, again, orders, -, otherGrid⟩ := number_of_parse others accepts wants real
    have subject : wider.subject = accepted.subject := Except.ok.inj (again.symm.trans named)
    have le : bound.place ≤ limit.place := by
      rw [← Double.atMost_iff (.of_isFinite finite) (.of_isFinite real),
        Double.atMost_iff_toRat finite real grid otherGrid]
      exact atMost
    rw [evaluate_number (orders ▸ rfl) wants real otherGrid (subject ▸ held) numeric isNumber, orders]
    exact lt_of_lt_of_le (less.mp below) le

/-- The number that `299.5` is read as. -/
def fraction : Double := .finite false 5268859720302592 (-44)

/-- A reply with nothing but a status. -/
def plainReply : Reply := { status := 200 }

/-- Of the operators `<`, `==` and `>` exactly one holds between the status of this reply and the number. -/
theorem status_ordered :
    takeParts "status < 299.5".toList = some ("status".toList, .less, "299.5".toList) ∧
      parse "status < 299.5" = .ok ⟨.status, .less, some (.number fraction), "status < 299.5"⟩ ∧
      fraction.isFinite = true ∧
      actual (Engine.facts plainReply plainReply.json?) .status = .ok (.int 200) ∧
      ∃ written : Operator → Assertion,
        (∀ operator, parse (lineOf "status".toList operator "299.5".toList) = .ok (written operator)) ∧
        ∃! operator, operator ∈ [Operator.less, .equal, .greater] ∧
          (evaluate {} {} (some (Engine.facts plainReply plainReply.json?)) (written operator)).pass = true := by
  have parts : takeParts "status < 299.5".toList = some ("status".toList, .less, "299.5".toList) := by rfl
  have reads : parse "status < 299.5" = .ok ⟨.status, .less, some (.number fraction), "status < 299.5"⟩ := by rfl
  have held : actual (Engine.facts plainReply plainReply.json?) .status = .ok (.int 200) := rfl
  obtain ⟨written, lines, -, -, -, ordered⟩ := numbers_ordered parts reads rfl rfl held rfl
  exact ⟨parts, reads, rfl, held, written, lines, (ordered (fun _ => {}) {}).1⟩

end Assertion
end Runbook

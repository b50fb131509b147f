import Runbook.Proofs.Assertion.Captured
import Runbook.Proofs.Double.Nearest
import Runbook.Proofs.Template.Substitution

/-!
Integers in assertions. An integer of the body is compared with an integer on the right as doubles, whether the right
one is written out or captured before: the two count as equal exactly where they are rounded to the same number.
-/

namespace Runbook

open Runbook.Text

/-- A path that leads somewhere can be read. -/
theorem Path.exists_parse_of_find {body value : Json} {path : String} (found : find body path = .ok value) :
    ∃ segments, parse path = .ok segments := by
  obtain ⟨segments, read, -⟩ := bind_eq_ok_iff.mp found
  exact ⟨segments, mapError_eq_ok_iff.mpr (mapError_eq_ok_iff.mp read)⟩

namespace Assertion

variable {draws : Template.Draws} {scope : Scope} {path name : String} {i j : Int} {c : Char}

/-- Nothing but digits and a minus stands in a written integer. -/
theorem not_mem_toString_int (other : (isDigit c || c == '-') = false) : c ∉ (toString j).toList := by
  intro member
  rcases isDigit_or_minus member with digit | rfl
  · simp [digit] at other
  · cases other

theorem toString_int_ne {word : String} (letter : ∃ c ∈ word.toList, (isDigit c || c == '-') = false) :
    (toString j == word) = false := by
  obtain ⟨c, member, other⟩ := letter
  refine beq_eq_false_iff_ne.mpr ?_
  rintro rfl
  exact not_mem_toString_int other member

theorem toString_int_ne_nil (j : Int) : (toString j).toList ≠ [] := by
  rw [toList_toString_int]
  exact List.append_ne_nil_of_right_ne_nil _ toList_toString_ne_nil

/-- A written integer is a right-hand side as it is. -/
theorem isGiven_toString_int (j : Int) : IsGiven (toString j).toList := by
  refine ⟨?_, not_mem_toString_int (by decide)⟩
  rw [toList_toString_int]
  split
  · have signed : IsTrimmed ('-' :: [] ++ (toString j.natAbs).toList) :=
      isTrimmed_append (by decide) toList_toString_ne_nil (isSolid_toString _).isTrimmed
    exact signed
  · exact (isSolid_toString _).isTrimmed

/-- A written integer is a number literal. -/
theorem readLiteral_toString_int {subject : Subject} (other : subject ≠ .duration) (j : Int) :
    readLiteral subject (toString j).toList = .ok (.number (Double.ofInt j)) := by
  have plain : Template.hasHoles (toString j) = false :=
    Template.hasHoles_eq_false (not_mem_toString_int (by decide))
  have bare : unquoted? (toString j).toList = none := by
    refine unquoted?_eq_none fun c first => ?_
    have member := List.mem_of_mem_head? first
    constructor <;> rintro rfl <;> exact not_mem_toString_int (by decide) member
  have word := @toString_int_ne j
  unfold readLiteral
  rw [String.ofList_toList, plain, bare]
  simp only [Bool.false_eq_true, if_false, other, readLiteral.bare, String.ofList_toList, Double.read?_toString,
    @word "true" ⟨'t', by decide, by decide⟩, @word "false" ⟨'f', by decide, by decide⟩,
    @word "null" ⟨'n', by decide, by decide⟩]

/-- A JSON number that is an integer is in the range in which doubles round it. -/
theorem natAbs_lt_of_json (least : Json.leastInt ≤ j) (greatest : j ≤ Json.greatestInt) :
    j.natAbs < Nat.pow 2 64 := by
  simp only [Json.leastInt, Json.greatestInt, Nat.pow_eq] at least greatest ⊢
  omega

/-- An integer equals a number literal of an integer where their doubles are the same, whether the literal counts as an
integer or as a double. -/
theorem equalsValue_numberValue (i : Int) (below : j.natAbs < Nat.pow 2 64) :
    equalsValue (.int i) (numberValue (Double.ofInt j)) = (Double.ofInt i).same (Double.ofInt j) := by
  obtain ⟨negative, mantissa, exponent, rounded, -, integer⟩ := Double.exists_ofInt below
  unfold numberValue
  rw [rounded, integer]
  dsimp only
  split
  · next small =>
    -- Below the bound no integer is rounded.
    have few : j.natAbs ≤ Nat.pow 2 53 := by
      by_contra many
      have large := Double.le_nearestNat (Nat.le_of_not_le many)
      rw [← Double.natAbs_nearest] at large
      have bound : integralBound.natAbs < Nat.pow 2 53 := by decide
      omega
    rw [Double.nearest_eq_self few, ← rounded]
    rfl
  · rfl

/-- An integer of the body equals a written integer where their doubles are the same. -/
theorem evaluate_literal {facts : Facts} {body : Json} (isJson : facts.json = some body)
    (found : Path.find body path = .ok (.int i)) (below : j.natAbs < Nat.pow 2 64) (left right : List Char) :
    (evaluate draws scope (some facts) (between (.body path) (.number (Double.ofInt j)) left right .equal)).pass =
      (Double.ofInt i).same (Double.ofInt j) := by
  have expects : expectedOf draws scope (.body path) (.number (Double.ofInt j)) =
      .ok (.value (numberValue (Double.ofInt j))) := rfl
  rw [evaluate_between rfl (actual_body isJson found) expects, compare_equal, ← equalsValue_numberValue i below]
  rfl

/-- An integer of the body equals a captured integer where their doubles are the same. -/
theorem evaluate_hole {facts : Facts} {body : Json} (isJson : facts.json = some body)
    (found : Path.find body path = .ok (.int i))
    (filled : Template.resolveValue draws scope (Template.holeOf name) = .ok (.int j)) (left right : List Char) :
    (evaluate draws scope (some facts)
        (between (.body path) (.template (Template.holeOf name)) left right .equal)).pass =
      (Double.ofInt i).same (Double.ofInt j) := by
  have expects : expectedOf draws scope (.body path) (.template (Template.holeOf name)) = .ok (.value (.int j)) := by
    simp only [expectedOf, filled]
  rw [evaluate_between rfl (actual_body isJson found) expects, compare_equal]
  rfl

/-- An integer of a JSON body equals another integer, written out or captured before, exactly where both are rounded to
the same number of as many binary digits as a double has. If one of the two has no more digits than that, they are
equal exactly where they are the same integer. -/
theorem integers_equal_iff_nearest {reply : Reply} {body : Json} (isJson : reply.json? = some body)
    (plain : ∀ c ∈ path.toList, isBlank c = false ∧ c ∉ ['=', '!', '<', '>'])
    (found : Path.find body path = .ok (.int i)) (identifier : Capture.isIdentifier name = true)
    (first : Json.leastInt ≤ i ∧ i ≤ Json.greatestInt) (second : Json.leastInt ≤ j ∧ j ≤ Json.greatestInt)
    (draws : Template.Draws) (scope : Scope) :
    let facts := Engine.facts reply reply.json?
    ∃ literal captured, parse ("body." ++ path ++ " == " ++ toString j) = .ok literal ∧
      parse ("body." ++ path ++ " == " ++ ("\x7b\x7b" ++ name ++ "\x7d\x7d")) = .ok captured ∧
      ((evaluate draws scope (some facts) literal).pass = true ↔ Double.nearest i = Double.nearest j) ∧
      ((evaluate draws (scope.capture name (.int j)) (some facts) captured).pass = true ↔
        Double.nearest i = Double.nearest j) ∧
      (i.natAbs < Nat.pow 2 53 ∨ j.natAbs < Nat.pow 2 53 → (Double.nearest i = Double.nearest j ↔ i = j)) := by
  intro facts
  obtain ⟨named, own⟩ := Template.isName_of_isIdentifier identifier
  obtain ⟨segments, parsed⟩ := Path.exists_parse_of_find found
  have below := natAbs_lt_of_json second.1 second.2
  have same := Double.same_ofInt_iff (natAbs_lt_of_json first.1 first.2) below
  obtain ⟨literal, -⟩ := parse_body plain parsed (isGiven_toString_int j) (toString_int_ne_nil j)
    (readLiteral_toString_int (by simp) j)
  obtain ⟨captured, -⟩ := parse_body plain parsed (Template.isGiven_holeOf named) (by simp [Template.toList_holeOf])
    (readLiteral_holeOf named)
  refine ⟨_, _, literal, captured, ?_, ?_, Double.nearest_eq_iff⟩
  · rw [evaluate_literal isJson found below]
    exact same
  · rw [evaluate_hole isJson found (Template.resolveValue_capture named own)]
    exact same

/-- A body with an integer of more binary digits than a double has. -/
def numbered : Json := .object [("id", .int 9007199254740993)]

/-- A reply with that body. -/
def numberedReply : Reply := { status := 200, body := "\x7b\"id\":9007199254740993\x7d" }

/-- The integer equals the one before it, written out and captured. -/
theorem neighbours_equal :
    numberedReply.json? = some numbered ∧ (∀ c ∈ "id".toList, isBlank c = false ∧ c ∉ ['=', '!', '<', '>']) ∧
      Path.find numbered "id" = .ok (.int 9007199254740993) ∧ Capture.isIdentifier "v" = true ∧
      ∃ literal captured, parse ("body." ++ "id" ++ " == " ++ toString (9007199254740992 : Int)) = .ok literal ∧
        parse ("body." ++ "id" ++ " == " ++ ("\x7b\x7b" ++ "v" ++ "\x7d\x7d")) = .ok captured ∧
        (evaluate {} {} (some (Engine.facts numberedReply numberedReply.json?)) literal).pass = true ∧
        (evaluate {} (Scope.capture {} "v" (.int 9007199254740992))
          (some (Engine.facts numberedReply numberedReply.json?)) captured).pass = true := by
  have isJson : numberedReply.json? = some numbered := by
    have text : numberedReply.body = numbered.compact := by decide +kernel
    have writable : numbered.Writable := by
      simp [numbered, Json.Writable, Json.WritableFields, Json.leastInt, Json.greatestInt]
    rw [Reply.json?, Json.parse?, text, Json.read?_compact writable (by decide)]
    rfl
  have plain : ∀ c ∈ "id".toList, isBlank c = false ∧ c ∉ ['=', '!', '<', '>'] := plain_of_all rfl
  have found : Path.find numbered "id" = .ok (.int 9007199254740993) := by rfl
  have identifier : Capture.isIdentifier "v" = true := by decide
  have first : Json.leastInt ≤ 9007199254740993 ∧ (9007199254740993 : Int) ≤ Json.greatestInt := by decide
  have second : Json.leastInt ≤ 9007199254740992 ∧ (9007199254740992 : Int) ≤ Json.greatestInt := by decide
  have rounded : Double.nearest 9007199254740993 = Double.nearest 9007199254740992 := by decide +kernel
  obtain ⟨literal, captured, reads, readsToo, written, held, -⟩ :=
    integers_equal_iff_nearest isJson plain found identifier first second {} {}
  exact ⟨isJson, plain, found, identifier, literal, captured, reads, readsToo, written.mpr rounded, held.mpr rounded⟩

end Assertion
end Runbook

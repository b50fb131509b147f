import Runbook.Proofs.Assertion.Source

/-!
The sides of an assertion: between the same left-hand side and the same right-hand side every operator can be written,
and each of the lines is the assertion with that operator.
-/

namespace Runbook.Assertion

open Runbook.Text

/-- A left-hand side: a word, or a word with a tail that holds neither blanks nor operators. -/
inductive IsSide : List Char → Prop
  | word {name : String} (named : name ∈ ["status", "duration", "body"]) : IsSide name.toList
  | tail {name : String} {run : List Char} (named : name ∈ ["body.", "body[", "header."])
      (plain : ∀ c ∈ run, isSubjectChar c = true) (filled : name = "header." → run ≠ []) : IsSide (name.toList ++ run)

/-- What stands behind a left-hand side in its line; the right-hand side is left out where the operator takes none. -/
def comparisonText (operator : Operator) (right : List Char) : List Char :=
  ' ' :: (operator.text.toList ++ if operator.isPresence then [] else ' ' :: right)

/-- The line of an assertion with the given sides. -/
def lineOf (left : List Char) (operator : Operator) (right : List Char) : String :=
  String.ofList (left ++ comparisonText operator right)

/-- The assertion with an operator between two sides. -/
def between (subject : Subject) (literal : Literal) (left right : List Char) (operator : Operator) : Assertion where
  subject := subject
  operator := operator
  expected := if operator.isPresence then none else some literal
  source := Text.trimmed (lineOf left operator right)

/-- The right-hand side that a line gives to an operator. -/
def given (operator : Operator) (right : List Char) : List Char := if operator.isPresence then [] else right

/-- A right-hand side as the reader keeps it: trimmed, and on one line. -/
structure IsGiven (right : List Char) : Prop where
  trimmed : IsTrimmed right
  plain : '\n' ∉ right

variable {operator : Operator} {right tail : List Char}

/-- An operator is read back where no sign behind it makes it a longer one. -/
theorem takeOperator_text (ends : tail.head? ≠ some '=') :
    takeOperator (operator.text.toList ++ tail) = some (operator, tail) := by
  cases tail with
  | nil => cases operator <;> rfl
  | cons c tail =>
    have apart : '=' ≠ c := fun same => ends (by rw [same]; rfl)
    cases operator with
    | less | greater => simp [takeOperator, Operator.all, Operator.text, afterFront?, apart]
    | _ => rfl

theorem takeComparison_text (stands : IsGiven right) :
    takeComparison (comparisonText operator right) = some (operator, given operator right) := by
  have solid : (operator.text.toList ++ if operator.isPresence then [] else ' ' :: right).dropWhile isBlank =
      operator.text.toList ++ if operator.isPresence then [] else ' ' :: right := by
    cases operator <;> rfl
  have ends : (if operator.isPresence then [] else ' ' :: right).head? ≠ some '=' := by
    split <;> simp
  have side : trim (if operator.isPresence then [] else ' ' :: right) = given operator right := by
    unfold given
    split
    · rfl
    · rw [trim_cons (by decide)]
      exact stands.trimmed
  have plain : (given operator right).contains '\n' = false := by
    unfold given
    split
    · rfl
    · simpa using stands.plain
  unfold takeComparison comparisonText
  rw [List.dropWhile_cons_of_pos (by decide), solid, takeOperator_text ends]
  simp only [side, plain, Bool.false_eq_true, if_false]

theorem takeWord_text (stands : IsGiven right) (name : String) :
    takeWord (name.toList ++ comparisonText operator right) name =
      some (name.toList, operator, given operator right) := by
  unfold takeWord
  rw [afterFront?_eq_some_iff.mpr rfl]
  simp [takeComparison_text stands]

theorem takeTail_text (stands : IsGiven right) (name : String) {least : Nat} {run : List Char}
    (plain : ∀ c ∈ run, isSubjectChar c = true) (filled : least ≤ run.length) :
    takeTail (name.toList ++ run ++ comparisonText operator right) name least =
      some (name.toList ++ run, operator, given operator right) := by
  have stops : isSubjectChar ' ' = false := by decide
  have first : (run ++ comparisonText operator right).takeWhile isSubjectChar = run := by
    rw [List.takeWhile_append_of_pos plain, comparisonText, List.takeWhile_cons_of_neg (by simp [stops]),
      List.append_nil]
  have behind : (run ++ comparisonText operator right).dropWhile isSubjectChar = comparisonText operator right := by
    rw [List.dropWhile_append_of_pos plain, comparisonText, List.dropWhile_cons_of_neg (by simp [stops])]
  have longest : takeLongest least run (comparisonText operator right) =
      some (run, operator, given operator right) := by
    unfold takeLongest
    rw [Nat.sub_add_comm filled, List.range_succ_eq_map, List.findSome?_cons]
    simp [takeComparison_text stands]
  unfold takeTail
  rw [List.append_assoc, afterFront?_eq_some_iff.mpr rfl]
  simp [first, behind, longest]

theorem takeWord_eq_none {text : List Char} {name : String} {c d : Char} (starts : text.head? = some c)
    (named : name.toList.head? = some d) (apart : c ≠ d) : takeWord text name = none := by
  cases found : takeWord text name with
  | none => rfl
  | some parts =>
    have same := head?_of_takeWord named (by rw [found]; rfl)
    exact absurd (Option.some.inj (starts.symm.trans same)) apart

theorem takeTail_eq_none {text : List Char} {name : String} {least : Nat} {c d : Char} (starts : text.head? = some c)
    (named : name.toList.head? = some d) (apart : c ≠ d) : takeTail text name least = none := by
  cases found : takeTail text name least with
  | none => rfl
  | some parts =>
    have same := head?_of_takeTail named (by rw [found]; rfl)
    exact absurd (Option.some.inj (starts.symm.trans same)) apart

/-- The line of an assertion splits into its sides. -/
theorem takeSides_text {left : List Char} (side : IsSide left) (stands : IsGiven right) :
    takeSides (left ++ comparisonText operator right) = some (left, operator, given operator right) := by
  cases side with
  | word named =>
    simp only [List.mem_cons, List.not_mem_nil, or_false] at named
    rcases named with rfl | rfl | rfl
    · rw [takeSides, takeWord_text stands]
      rfl
    · rw [takeSides, takeWord_eq_none (c := 'd') (d := 's') rfl rfl (by decide), takeWord_text stands]
      rfl
    · have dotless : takeTail ("body".toList ++ comparisonText operator right) "body." 0 = none := rfl
      have plain : takeTail ("body".toList ++ comparisonText operator right) "body[" 0 = none := rfl
      rw [takeSides, takeWord_eq_none (c := 'b') (d := 's') rfl rfl (by decide),
        takeWord_eq_none (c := 'b') (d := 'd') rfl rfl (by decide), dotless, plain, takeWord_text stands]
      rfl
  | @tail _ run named plain filled =>
    simp only [List.mem_cons, List.not_mem_nil, or_false] at named
    rcases named with rfl | rfl | rfl
    · rw [takeSides, takeWord_eq_none (c := 'b') (d := 's') rfl rfl (by decide),
        takeWord_eq_none (c := 'b') (d := 'd') rfl rfl (by decide), takeTail_text stands _ plain (Nat.zero_le _)]
      rfl
    · have dotless : takeTail ("body[".toList ++ run ++ comparisonText operator right) "body." 0 = none := rfl
      rw [takeSides, takeWord_eq_none (c := 'b') (d := 's') rfl rfl (by decide),
        takeWord_eq_none (c := 'b') (d := 'd') rfl rfl (by decide), dotless,
        takeTail_text stands _ plain (Nat.zero_le _)]
      rfl
    · rw [takeSides, takeWord_eq_none (c := 'h') (d := 's') rfl rfl (by decide),
        takeWord_eq_none (c := 'h') (d := 'd') rfl rfl (by decide),
        takeTail_eq_none (c := 'h') (d := 'b') rfl rfl (by decide),
        takeTail_eq_none (c := 'h') (d := 'b') rfl rfl (by decide),
        takeWord_eq_none (c := 'h') (d := 'b') rfl rfl (by decide),
        takeTail_text stands _ plain (List.length_pos_iff.mpr (filled rfl))]
      rfl

theorem isGiven_of_takeComparison {text : List Char} (found : takeComparison text = some (operator, right)) :
    IsGiven right := by
  unfold takeComparison at found
  split at found
  · dsimp only at found
    split at found
    · cases found
    · next plain =>
      cases found
      exact ⟨isTrimmed_trim _, by simpa using plain⟩
  · cases found

theorem sides_of_takeWord {text left : List Char} {name : String} (named : name ∈ ["status", "duration", "body"])
    (found : takeWord text name = some (left, operator, right)) : IsSide left ∧ IsGiven right := by
  simp only [takeWord, Option.bind_eq_bind, Option.bind_eq_some_iff] at found
  obtain ⟨rest, -, ⟨taken, side⟩, comparison, same⟩ := found
  cases same
  exact ⟨.word named, isGiven_of_takeComparison comparison⟩

theorem sides_of_takeTail {text left : List Char} {name : String} {least : Nat}
    (named : name ∈ ["body.", "body[", "header."]) (filled : name = "header." → 0 < least)
    (found : takeTail text name least = some (left, operator, right)) : IsSide left ∧ IsGiven right := by
  simp only [takeTail, Option.bind_eq_bind, Option.bind_eq_some_iff] at found
  obtain ⟨rest, -, ⟨side, taken⟩, longest, same⟩ := found
  cases same
  simp only [takeLongest] at longest
  obtain ⟨dropped, inside, chosen⟩ := List.exists_of_findSome?_eq_some longest
  obtain ⟨⟨_, _⟩, comparison, same⟩ := Option.map_eq_some_iff.mp chosen
  cases same
  have plain (c : Char) (member : c ∈ (rest.takeWhile isSubjectChar).take
      ((rest.takeWhile isSubjectChar).length - dropped)) : isSubjectChar c = true :=
    List.mem_takeWhile_imp (List.mem_of_mem_take member)
  refine ⟨.tail named plain fun same none => ?_, isGiven_of_takeComparison comparison⟩
  have empty := congrArg List.length none
  have long := filled same
  rw [List.mem_range] at inside
  rw [List.length_take, List.length_nil] at empty
  omega

/-- The sides that a text splits into are sides. -/
theorem sides_of_takeSides {text left : List Char} (parts : takeSides text = some (left, operator, right)) :
    IsSide left ∧ IsGiven right := by
  simp only [takeSides, Option.orElse_eq_or, Option.or_eq_some_iff] at parts
  rcases parts with word | ⟨-, word | ⟨-, tail | ⟨-, tail | ⟨-, word | ⟨-, tail⟩⟩⟩⟩⟩
  · exact sides_of_takeWord (by decide) word
  · exact sides_of_takeWord (by decide) word
  · exact sides_of_takeTail (by decide) (by decide) tail
  · exact sides_of_takeTail (by decide) (by decide) tail
  · exact sides_of_takeWord (by decide) word
  · exact sides_of_takeTail (by decide) (by decide) tail

/-- A left-hand side starts with a letter. -/
theorem IsSide.exists_head {left : List Char} (side : IsSide left) :
    ∃ c rest, left = c :: rest ∧ isBlank c = false := by
  cases side with
  | word named =>
    simp only [List.mem_cons, List.not_mem_nil, or_false] at named
    rcases named with rfl | rfl | rfl <;> exact ⟨_, _, rfl, by decide⟩
  | tail named =>
    simp only [List.mem_cons, List.not_mem_nil, or_false] at named
    rcases named with rfl | rfl | rfl <;> exact ⟨_, _, rfl, by decide⟩

/-- The line of an assertion splits into the sides that it is made of. -/
theorem takeParts_lineOf {left : List Char} (side : IsSide left) (stands : IsGiven right) :
    takeParts (lineOf left operator right).toList = some (left, operator, given operator right) := by
  obtain ⟨c, rest, whole, solid⟩ := side.exists_head
  have front : (left ++ comparisonText operator right).dropWhile isBlank = left ++ comparisonText operator right := by
    rw [whole, List.cons_append, List.dropWhile_cons_of_neg (by simp [solid])]
  rw [lineOf, String.toList_ofList, takeParts_eq, front, takeSides_text side stands]

/-- What starts with no quote is not quoted. -/
theorem unquoted?_eq_none (plain : ∀ c ∈ right.head?, c ≠ '"' ∧ c ≠ '\'') : unquoted? right = none := by
  cases right with
  | nil => rfl
  | cons first rest =>
    obtain ⟨double, single⟩ := plain first rfl
    simp [unquoted?, double, single]

/-- What has neither placeholders nor quotes is a bare literal where other values than the duration are compared. -/
theorem readLiteral_unquoted {subject : Subject} (other : subject ≠ .duration)
    (holeless : Template.hasHoles (String.ofList right) = false) (unquoted : unquoted? right = none) :
    readLiteral subject right = .ok (readLiteral.bare right) := by
  simp [readLiteral, holeless, unquoted, other]

/-- A line that compares two sides is read side by side. -/
theorem parse_comparison {text : String} {left : List Char} {assertion : Assertion}
    (parts : takeParts text.toList = some (left, operator, right)) (accepted : parse text = .ok assertion)
    (compares : operator.isPresence = false) :
    right ≠ [] ∧ readSubject left = .ok assertion.subject ∧ assertion.operator = operator ∧
      ∃ literal, readLiteral assertion.subject right = .ok literal ∧ assertion.expected = some literal := by
  simp only [parse, parts, compares, Bool.false_eq_true, if_false, bind, Except.bind] at accepted
  cases named : readSubject left with
  | error fault => simp [named] at accepted
  | ok subject =>
    simp only [named] at accepted
    split at accepted
    · cases accepted
    · next filled =>
      cases written : readLiteral subject right with
      | error fault => simp [written] at accepted
      | ok literal =>
        simp only [written] at accepted
        cases accepted
        exact ⟨by simpa using filled, rfl, rfl, literal, written, rfl⟩

/-- Between sides that can be read every operator makes an assertion. -/
theorem parse_lineOf {left : List Char} {subject : Subject} {literal : Literal} (side : IsSide left)
    (stands : IsGiven right) (filled : right ≠ []) (named : readSubject left = .ok subject)
    (written : readLiteral subject right = .ok literal) (operator : Operator) :
    parse (lineOf left operator right) = .ok (between subject literal left right operator) := by
  have full : right.isEmpty = false := List.isEmpty_eq_false_iff.mpr filled
  simp only [parse, takeParts_lineOf side stands, named, given, between, bind, Except.bind]
  cases operator.isPresence with
  | true => rfl
  | false => simp [full, written, pure, Except.pure]

end Runbook.Assertion

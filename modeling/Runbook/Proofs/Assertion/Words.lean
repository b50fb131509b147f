import Runbook.Proofs.Assertion.Integer

/-!
Bare words on the right of an assertion. A word of letters without quotes is compared as a string, except for the words
that have a meaning of their own: the truth values, null, and the names of the doubles that are no real numbers. JSON
has no value for such a double, so these names count as null.
-/

namespace Runbook

open Runbook.Text

namespace Text

variable {c d : Char}

theorem ne_of_isLetter (letter : isLetter c = true) (other : isLetter d = false) : c ≠ d := by
  rintro rfl
  rw [letter] at other
  cases other

theorem isDigit_eq_false_of_isLetter (letter : isLetter c = true) : isDigit c = false := by
  refine Bool.eq_false_iff.mpr fun digit => ?_
  rw [isDigit_iff] at digit
  rw [isLetter_iff] at letter
  omega

theorem isBlank_eq_false_of_isLetter (letter : isLetter c = true) : isBlank c = false := by
  rw [isLetter_iff] at letter
  simp only [isBlank, Bool.or_eq_false_iff, Bool.and_eq_false_iff, decide_eq_false_iff_not, beq_eq_false_iff_ne]
  omega

end Text

namespace Double

variable {word : String}

/-- The names of the doubles that are no real numbers. -/
def unreal : List String := ["inf", "infinity", "nan"]

/-- A decimal starts with a digit or a point. -/
theorem magnitude?_cons_eq_none {c : Char} (digitless : isDigit c = false) (pointless : c ≠ '.') (negative : Bool)
    (rest : List Char) : magnitude? negative (c :: rest) = none := by
  have start : ∀ more, c :: rest = '.' :: more → False := fun more same => pointless (List.cons.inj same).1
  simp [magnitude?, digitless]

/-- A text without a sign in front is a word for a double or a decimal. -/
theorem read?_of_signless {text : List Char} (signless : ∀ c ∈ text.head?, c ≠ '+' ∧ c ≠ '-') :
    read? text =
      if String.ofList (text.map lowerChar) == "inf" || String.ofList (text.map lowerChar) == "infinity" then
        some (infinite false)
      else if String.ofList (text.map lowerChar) == "nan" then some (notANumber false)
      else magnitude? false text := by
  unfold read?
  split
  next sign =>
    split at sign
    next plus => exact absurd rfl (signless '+' (by simp)).1
    next minus => exact absurd rfl (signless '-' (by simp)).2
    · cases sign
      rfl

/-- Letters name a double that is no real number, or they write no double at all. -/
theorem read?_letters (letters : ∀ c ∈ word.toList, isLetter c = true) :
    (lower word ∈ unreal → ∃ x, read? word.toList = some x ∧ x.isFinite = false) ∧
      (lower word ∉ unreal → read? word.toList = none) := by
  have signless : ∀ c ∈ word.toList.head?, c ≠ '+' ∧ c ≠ '-' := fun c first =>
    have letter := letters c (List.mem_of_mem_head? first)
    ⟨ne_of_isLetter letter (by decide), ne_of_isLetter letter (by decide)⟩
  have decimal : magnitude? false word.toList = none := by
    cases whole : word.toList with
    | nil => rfl
    | cons c rest =>
      have letter := letters c (by simp [whole])
      exact magnitude?_cons_eq_none (isDigit_eq_false_of_isLetter letter) (ne_of_isLetter letter (by decide)) _ _
  have lowered : String.ofList (word.toList.map lowerChar) = lower word := rfl
  rw [read?_of_signless signless, lowered, decimal]
  constructor
  · intro named
    simp only [unreal, List.mem_cons, List.not_mem_nil, or_false] at named
    rcases named with same | same | same <;> rw [same] <;> exact ⟨_, rfl, rfl⟩
  · intro other
    simp only [unreal, List.mem_cons, List.not_mem_nil, or_false, not_or] at other
    simp [other]

end Double

namespace Assertion

variable {draws : Template.Draws} {scope : Scope} {subject : Subject} {path word : String} {value : Json}

/-- The value that a bare word stands for. -/
def wordValue (word : String) : Json := if lower word ∈ Double.unreal then .null else .string word

/-- A word of letters is a right-hand side as it is. -/
theorem isGiven_letters (letters : ∀ c ∈ word.toList, isLetter c = true) (filled : word.toList ≠ []) :
    IsGiven word.toList := by
  have solid : IsSolid word.toList := ⟨filled, fun c member => isBlank_eq_false_of_isLetter (letters c member)⟩
  exact ⟨solid.isTrimmed, solid.not_mem (by decide)⟩

/-- What is no real number has no value in JSON. -/
theorem numberValue_unreal {x : Double} (infinite : x.isFinite = false) : numberValue x = .null := by
  cases x with
  | finite => cases infinite
  | infinite | notANumber => rfl

/-- A bare word is a literal with the value that it stands for. -/
theorem readLiteral_word (other : subject ≠ .duration) (letters : ∀ c ∈ word.toList, isLetter c = true)
    (plain : word ∉ ["true", "false", "null"]) :
    ∃ literal, readLiteral subject word.toList = .ok literal ∧
      ∀ draws scope, expectedOf draws scope subject literal = .ok (.value (wordValue word)) := by
  have apart {d : Char} (strange : isLetter d = false) : d ∉ word.toList := fun member =>
    ne_of_isLetter (letters d member) strange rfl
  have holeless : Template.hasHoles (String.ofList word.toList) = false := by
    rw [String.ofList_toList]
    exact Template.hasHoles_eq_false (apart (by decide))
  have unquoted : unquoted? word.toList = none := by
    refine unquoted?_eq_none fun c first => ?_
    have letter := letters c (List.mem_of_mem_head? first)
    exact ⟨ne_of_isLetter letter (by decide), ne_of_isLetter letter (by decide)⟩
  have container : (word.toList.head? == some '[' || word.toList.head? == some '\x7b') = false := by
    have first {d : Char} (strange : isLetter d = false) : word.toList.head? ≠ some d := fun same =>
      apart strange (List.mem_of_mem_head? same)
    simp [first (show isLetter '[' = false by decide), first (show isLetter '\x7b' = false by decide)]
  simp only [List.mem_cons, List.not_mem_nil, or_false, not_or] at plain
  obtain ⟨named, unnamed⟩ := Double.read?_letters letters
  have bare := readLiteral_unquoted other holeless unquoted
  simp only [readLiteral.bare, String.ofList_toList, beq_iff_eq, plain, if_false, container] at bare
  unfold wordValue
  split
  · next real =>
    obtain ⟨x, read, infinite⟩ := named real
    rw [read] at bare
    exact ⟨_, bare, fun draws scope => by rw [expectedOf, numberValue_unreal infinite]⟩
  · next real =>
    rw [unnamed real] at bare
    exact ⟨_, bare, fun draws scope => rfl⟩

/-- Only the word itself, or null where the word stands for it, equals a bare word. -/
theorem equals_wordValue (value : Json) (word : String) :
    equals value (.value (wordValue word)) = true ↔ value = wordValue word := by
  have named : equals value (.value .null) = true ↔ value = .null := by
    cases value <;> simp [equals, equalsValue, Json.same]
  have unnamed : equals value (.value (.string word)) = true ↔ value = .string word := by
    cases value <;> simp [equals, equalsValue, Json.same]
  unfold wordValue
  split
  · exact named
  · exact unnamed

/-- A part of a JSON body equals a bare word, which is none of the words for a truth value and null, exactly where it is
the string of that word, and differs from it everywhere else. The names of infinity and of no number, in any case of
their letters, are no such words: they are equal to null and to nothing else. -/
theorem words_compared {facts : Facts} {body : Json} (isJson : facts.json = some body)
    (plain : ∀ c ∈ path.toList, isBlank c = false ∧ c ∉ ['=', '!', '<', '>'])
    (found : Path.find body path = .ok value) (filled : word ≠ "") (letters : ∀ c ∈ word.toList, isLetter c = true)
    (other : word ∉ ["true", "false", "null"]) :
    ∃ equality inequality, parse ("body." ++ path ++ " == " ++ word) = .ok equality ∧
      parse ("body." ++ path ++ " != " ++ word) = .ok inequality ∧
      ∀ (draws : Template.Draws) (scope : Scope),
        let passes := fun assertion => (evaluate draws scope (some facts) assertion).pass = true
        (lower word ∉ ["inf", "infinity", "nan"] →
          (passes equality ↔ value = .string word) ∧ (passes inequality ↔ value ≠ .string word)) ∧
        (lower word ∈ ["inf", "infinity", "nan"] →
          (passes equality ↔ value = .null) ∧ (passes inequality ↔ value ≠ .null)) := by
  have filled : word.toList ≠ [] := fun empty => filled (String.toList_eq_nil_iff.mp empty)
  obtain ⟨segments, parsed⟩ := Path.exists_parse_of_find found
  obtain ⟨literal, written, expects⟩ := @readLiteral_word (.body path) word (by simp) letters other
  obtain ⟨equality, inequality⟩ := parse_body plain parsed (isGiven_letters letters filled) filled written
  refine ⟨_, _, equality, inequality, fun draws scope => ?_⟩
  obtain ⟨equal, unequal⟩ := evaluate_body isJson found (expects draws scope) ("body.".toList ++ path.toList) word.toList
  have same := equals_wordValue value word
  have differ : (!equals value (.value (wordValue word))) = true ↔ value ≠ wordValue word := by
    rw [Bool.not_eq_true', ← Bool.not_eq_true, same]
  dsimp only
  rw [equal, unequal, same, differ]
  refine ⟨fun unnamed => ?_, fun named => ?_⟩
  · rw [wordValue, if_neg (show lower word ∉ Double.unreal from unnamed)]
    exact ⟨Iff.rfl, Iff.rfl⟩
  · rw [wordValue, if_pos (show lower word ∈ Double.unreal from named)]
    exact ⟨Iff.rfl, Iff.rfl⟩

/-- A body with a state in words and a gap. -/
def gapped : Json := .object [("gap", .null), ("state", .string "paid")]

/-- The facts of a reply with that body. -/
def gappedFacts : Facts := ⟨200, 5, [], some gapped, "\x7b\"gap\":null,\"state\":\"paid\"\x7d"⟩

/-- The state equals the word that it is, and the gap equals the name of infinity. -/
theorem gapped_compared :
    gappedFacts.json = some gapped ∧
      (∀ name ∈ ["state", "gap"], ∀ c ∈ name.toList, isBlank c = false ∧ c ∉ ['=', '!', '<', '>']) ∧
      Path.find gapped "state" = .ok (.string "paid") ∧ Path.find gapped "gap" = .ok .null ∧
      (∀ word ∈ ["paid", "Infinity"],
        word ≠ "" ∧ (∀ c ∈ word.toList, isLetter c = true) ∧ word ∉ ["true", "false", "null"]) ∧
      (∃ equality, parse ("body." ++ "state" ++ " == " ++ "paid") = .ok equality ∧
        (evaluate {} {} (some gappedFacts) equality).pass = true) ∧
      ∃ equality, parse ("body." ++ "gap" ++ " == " ++ "Infinity") = .ok equality ∧
        (evaluate {} {} (some gappedFacts) equality).pass = true := by
  have isJson : gappedFacts.json = some gapped := rfl
  have plain : ∀ name ∈ ["state", "gap"], ∀ c ∈ name.toList, isBlank c = false ∧ c ∉ ['=', '!', '<', '>'] := by
    intro name member
    simp only [List.mem_cons, List.not_mem_nil, or_false] at member
    rcases member with rfl | rfl <;> exact plain_of_all rfl
  have state : Path.find gapped "state" = .ok (.string "paid") := by rfl
  have gap : Path.find gapped "gap" = .ok .null := by rfl
  have words : ∀ word ∈ ["paid", "Infinity"],
      word ≠ "" ∧ (∀ c ∈ word.toList, isLetter c = true) ∧ word ∉ ["true", "false", "null"] := by
    intro word member
    simp only [List.mem_cons, List.not_mem_nil, or_false] at member
    rcases member with rfl | rfl <;> exact ⟨by decide, List.all_eq_true.mp rfl, by decide⟩
  obtain ⟨filled, letters, other⟩ := words "paid" (by decide)
  obtain ⟨paid, _, reads, -, paidPasses⟩ :=
    words_compared isJson (plain "state" (by decide)) state filled letters other
  obtain ⟨filled, letters, other⟩ := words "Infinity" (by decide)
  obtain ⟨infinity, _, readsToo, -, infinityPasses⟩ :=
    words_compared isJson (plain "gap" (by decide)) gap filled letters other
  have unnamed : lower "paid" ∉ ["inf", "infinity", "nan"] := by decide
  have named : lower "Infinity" ∈ ["inf", "infinity", "nan"] := by decide
  exact ⟨isJson, plain, state, gap, words, ⟨paid, reads, ((paidPasses {} {}).1 unnamed).1.mpr rfl⟩,
    infinity, readsToo, ((infinityPasses {} {}).2 named).1.mpr rfl⟩

end Assertion
end Runbook

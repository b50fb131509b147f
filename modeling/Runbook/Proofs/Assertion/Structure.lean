import Mathlib.Data.List.Sort
import Runbook.Proofs.Assertion.Integer
import Runbook.Proofs.Dict
import Runbook.Proofs.Path.Compose

/-!
Arrays and objects in assertions. A container of the body equals a captured one where their parts are equal, position by
position or key by key. Numbers inside of containers are compared more strictly than numbers on their own: an integer is
no double there, and integers are not rounded.
-/

namespace Runbook

open Runbook.Text

namespace Dict

variable {α : Type} {dict others : Dict α} {key : String}

theorem mem_keys_iff : key ∈ dict.keys ↔ ∃ value, dict.find? key = some value := by
  induction dict with
  | nil => simp [keys]
  | cons pair rest ih =>
    obtain ⟨name, value⟩ := pair
    have step : key ∈ keys ((name, value) :: rest) ↔ key = name ∨ key ∈ keys rest := by simp [keys]
    rw [step, ih]
    by_cases same : key = name
    · simp [find?, same]
    · have apart : (key == name) = false := by simpa using same
      simp [find?, List.lookup_cons, apart, same]

/-- Dictionaries with the same keys have them in the same order. -/
theorem Sorted.keys_eq (sorted : dict.Sorted) (again : others.Sorted)
    (same : ∀ key, key ∈ dict.keys ↔ key ∈ others.keys) : dict.keys = others.keys := by
  have ordered {dict : Dict α} (sorted : dict.Sorted) : dict.keys.Pairwise (· < ·) := List.pairwise_map.mpr sorted
  have perm := (List.perm_ext_iff_of_nodup sorted.nodup again.nodup).mpr same
  refine List.Perm.eq_of_pairwise (fun first second _ _ before after => ?_) (ordered sorted) (ordered again) perm
  exact absurd after (String.lt_asymm before)

end Dict

namespace Json

variable {first second : Json} {items others : List Json} {fields otherFields : Dict Json}

/-- Two numbers are held alike: as the same integer, or both as doubles. What is no number is left out of account. -/
def HeldAlike : Json → Json → Prop
  | int i, int j => i = j
  | int _, real _ | real _, int _ => False
  | _, _ => True

theorem sameItems_iff : sameItems items others = true ↔ items.length = others.length ∧
    ∀ (position : Nat) first second, items[position]? = some first → others[position]? = some second →
      first.same second = true := by
  induction items generalizing others with
  | nil => cases others <;> simp [sameItems]
  | cons item rest ih =>
    cases others with
    | nil => simp [sameItems]
    | cons other more =>
      rw [sameItems, Bool.and_eq_true, ih]
      constructor
      · rintro ⟨head, length, each⟩
        refine ⟨by simpa using length, fun position first second => ?_⟩
        cases position with
        | zero =>
          rintro ⟨⟩ ⟨⟩
          exact head
        | succ position => exact each position first second
      · rintro ⟨length, each⟩
        exact ⟨each 0 item other rfl rfl, by simpa using length, fun position => each (position + 1)⟩

theorem keys_eq_of_sameFields (same : sameFields fields otherFields = true) :
    Dict.keys fields = Dict.keys otherFields := by
  induction fields generalizing otherFields with
  | nil => cases otherFields <;> simp_all [sameFields]
  | cons field rest ih =>
    cases otherFields with
    | nil => simp [sameFields] at same
    | cons other more =>
      simp only [sameFields, Bool.and_eq_true, beq_iff_eq] at same
      simp only [Dict.keys, List.map_cons, same.1.1]
      exact congrArg _ (ih same.2)

/-- Objects with the same keys are the same where they have the same value under each key. -/
theorem sameFields_iff (keys : Dict.keys fields = Dict.keys otherFields) (distinct : (Dict.keys fields).Nodup) :
    sameFields fields otherFields = true ↔ ∀ key first second, Dict.find? key fields = some first →
      Dict.find? key otherFields = some second → first.same second = true := by
  induction fields generalizing otherFields with
  | nil => cases otherFields <;> simp_all [sameFields, Dict.keys]
  | cons field rest ih =>
    cases otherFields with
    | nil => simp [Dict.keys] at keys
    | cons other more =>
      obtain ⟨name, value⟩ := field
      obtain ⟨again, held⟩ := other
      obtain ⟨rfl, later⟩ : name = again ∧ Dict.keys rest = Dict.keys more := by simpa [Dict.keys] using keys
      obtain ⟨fresh, apart⟩ : name ∉ Dict.keys rest ∧ (Dict.keys rest).Nodup := by simpa [Dict.keys] using distinct
      simp only [sameFields, beq_self_eq_true, Bool.true_and, Bool.and_eq_true, ih later apart]
      constructor
      · rintro ⟨head, each⟩ key first second left right
        by_cases here : key = name
        · subst here
          simp only [Dict.find?, List.lookup_cons_self] at left right
          cases left
          cases right
          exact head
        · have apart : (key == name) = false := by simpa using here
          simp only [Dict.find?, List.lookup_cons, apart] at left right
          exact each key first second left right
      · intro each
        refine ⟨each name value held (by simp [Dict.find?]) (by simp [Dict.find?]),
          fun key first second left right => ?_⟩
        have apart : (key == name) = false := by
          refine beq_eq_false_iff_ne.mpr ?_
          rintro rfl
          exact fresh (Dict.mem_keys_iff.mpr ⟨first, left⟩)
        refine each key first second ?_ ?_ <;> simpa [Dict.find?, List.lookup_cons, apart]

/-- An array is the same as another one where the two have the same length and the same items. -/
theorem same_array : (array items).same (array others) = true ↔ items.length = others.length ∧
    ∀ (position : Nat) first second, items[position]? = some first → others[position]? = some second →
      first.same second = true := by
  rw [same, sameItems_iff]

/-- An object is the same as another one where the two have the same keys and the same values under them. -/
theorem same_object (sorted : fields.Sorted) (again : otherFields.Sorted) :
    (object fields).same (object otherFields) = true ↔
      (∀ key, key ∈ fields.keys ↔ key ∈ otherFields.keys) ∧ ∀ key first second, fields.find? key = some first →
        otherFields.find? key = some second → first.same second = true := by
  rw [same]
  constructor
  · intro equal
    have keys := keys_eq_of_sameFields equal
    exact ⟨fun key => by rw [keys], (sameFields_iff keys sorted.nodup).mp equal⟩
  · rintro ⟨keys, each⟩
    exact (sameFields_iff (sorted.keys_eq again keys) sorted.nodup).mpr each

end Json

/-! Paths to the parts of a container -/

/-- A part that a path in an assertion can name: neither blanks nor operators stand in a left-hand side. -/
def Segment.Nameable (segment : Segment) : Prop :=
  segment.Printable ∧ ∀ c ∈ (Path.segmentText true segment).toList, isBlank c = false ∧ c ∉ ['=', '!', '<', '>']

instance (segment : Segment) : Decidable segment.Nameable := inferInstanceAs (Decidable (_ ∧ _))

/-- The items of an array are always named in place; a member of an object is not where its key has a blank in it. -/
theorem Segment.nameable_index {position : Nat} (fits : position < Path.positionLimit) :
    (Segment.index position).Nameable := by
  refine ⟨fits, fun c member => ?_⟩
  have char : c = '[' ∨ c ∈ (toString position).toList ∨ c = ']' := by
    simpa [Path.segmentText, String.toList_append] using member
  rcases char with rfl | digit | rfl
  · decide
  · have apart {d : Char} (other : isDigit d = false) : c ≠ d := by
      rintro rfl
      rw [isDigit_of_mem_toString digit] at other
      cases other
    refine ⟨isBlank_eq_false_of_isDigit (isDigit_of_mem_toString digit), ?_⟩
    simp [apart (show isDigit '=' = false by decide), apart (show isDigit '!' = false by decide),
      apart (show isDigit '<' = false by decide), apart (show isDigit '>' = false by decide)]
  · decide

namespace Path

variable {body container part : Json} {path : String} {segment : Segment} {segments : List Segment}

/-- A path with one more segment behind it. -/
def behind (path : String) (segment : Segment) : String := path ++ segmentText path.isEmpty segment

theorem isTrimmed_of_solid {text : List Char} (solid : ∀ c ∈ text, isBlank c = false) : IsTrimmed text :=
  isTrimmed_iff.mpr ⟨fun c first => solid c (List.mem_of_mem_head? first),
    fun c last => solid c (List.mem_of_getLast? last)⟩

/-- A path with a segment behind it is read with this segment as its last one. -/
theorem parse_behind (parsed : parse path = .ok segments) (solid : ∀ c ∈ path.toList, isBlank c = false)
    (nameable : segment.Nameable) : parse (behind path segment) = .ok (segments ++ [segment]) := by
  obtain ⟨printable, plain⟩ := nameable
  have trimmed := isTrimmed_of_solid solid
  unfold behind
  by_cases empty : path = ""
  · subst empty
    obtain rfl : [] = segments := by
      have none : parse "" = .ok [] := rfl
      exact Except.ok.inj (none.symm.trans parsed)
    have alone : render [segment] = segmentText true segment := by simp [render]
    have single : ∀ other ∈ [segment], other.Printable := by simpa using printable
    have read := parse_render single (alone ▸ isTrimmed_of_solid fun c member => (plain c member).1)
    rw [alone] at read
    rwa [show String.isEmpty "" = true by rfl, String.empty_append]
  · have filled : path.isEmpty = false := by simpa using empty
    rw [filled]
    cases segment with
    | key name =>
      have written : Writes name.toList [.key name] := by
        simpa using Writes.dotted (List.cons_ne_nil _ _) (.cons (isPart_key printable) .nil)
      have inner := isTrimmed_of_solid fun c member => (plain c member).1
      have read : parse name = .ok [.key name] := by
        rw [parse_eq_ok_iff, show trim name.toList = name.toList from inner]
        exact written
      have same : path ++ segmentText false (.key name) = dotted path name := by
        simp [segmentText, dotted, String.append_assoc]
      rw [same]
      exact parse_dotted parsed read empty (by simpa using printable.filled) trimmed inner
    | index position =>
      have same : path ++ segmentText false (.index position) = bracketed path position := by
        simp [segmentText, bracketed, String.append_assoc]
      rw [same]
      exact parse_bracketed parsed empty trimmed printable

/-- A path with a segment behind it leads to the part that the segment names. -/
theorem find_behind (found : find body path = .ok container) (solid : ∀ c ∈ path.toList, isBlank c = false)
    (nameable : segment.Nameable) (leads : step container segment = .ok part) :
    find body (behind path segment) = .ok part := by
  obtain ⟨segments, read, follows⟩ := bind_eq_ok_iff.mp found
  have parsed : parse path = .ok segments := mapError_eq_ok_iff.mpr (mapError_eq_ok_iff.mp read)
  have longer := mapError_eq_ok_iff.mp (parse_behind parsed solid nameable)
  have inner : follow container [segment] = .ok part := bind_eq_ok_iff.mpr ⟨part, leads, rfl⟩
  refine bind_eq_ok_iff.mpr ⟨_, mapError_eq_ok_iff.mpr longer, ?_⟩
  rw [follow_append]
  exact bind_eq_ok_iff.mpr ⟨container, follows, inner⟩

theorem plain_behind (plain : ∀ c ∈ path.toList, isBlank c = false ∧ c ∉ ['=', '!', '<', '>'])
    (nameable : segment.Nameable) :
    ∀ c ∈ (behind path segment).toList, isBlank c = false ∧ c ∉ ['=', '!', '<', '>'] := by
  intro c member
  rw [behind, String.toList_append, List.mem_append] at member
  rcases member with front | back
  · exact plain c front
  · have char : c = '.' ∨ c ∈ (segmentText true segment).toList := by
      cases segment with
      | index position => exact .inr back
      | key name =>
        simp only [segmentText, if_true] at back ⊢
        split at back
        · exact .inr back
        · simpa [String.toList_append] using back
    rcases char with rfl | inside
    · decide
    · exact nameable.2 c inside

end Path

namespace Assertion

variable {draws : Template.Draws} {scope : Scope} {facts : Facts} {body container value part expected : Json}
  {path name : String} {segment : Segment}

/-- The assertion passes that the part of the body at a path equals a value which is captured under a name. -/
def EqualsCaptured (draws : Template.Draws) (scope : Scope) (facts : Facts) (path name : String) (value : Json) : Prop :=
  ∃ assertion, parse ("body." ++ path ++ " == " ++ ("\x7b\x7b" ++ name ++ "\x7d\x7d")) = .ok assertion ∧
    (evaluate draws (scope.capture name value) (some facts) assertion).pass = true

/-- Where an assertion looks at a part of a container: behind the path of the container, or, if no assertion can name
the part there, in a reply that has this part as its whole body. -/
def placeOf (facts : Facts) (path : String) (segment : Segment) (part : Json) : Facts × String :=
  if segment.Nameable then (facts, Path.behind path segment) else ({ facts with json := some part }, "")

/-- A part of the body equals the same part of a captured container: a string where it is the same string, and any other
value where the assertion on the part alone passes and numbers are held alike. -/
def PartEquals (draws : Template.Draws) (scope : Scope) (facts : Facts) (path name : String) (segment : Segment)
    (part expected : Json) : Prop :=
  match expected with
  | .string text => part = .string text
  | _ => EqualsCaptured draws scope (placeOf facts path segment part).1 (placeOf facts path segment part).2 name
      expected ∧ part.HeldAlike expected

/-- What is the same as a value equals it, and the same holds the other way round where numbers are held alike. -/
theorem same_iff (apart : ∀ text, expected ≠ .string text) :
    part.same expected = true ↔ equalsValue part expected = true ∧ part.HeldAlike expected := by
  cases expected with
  | string text => exact absurd rfl (apart text)
  | int j =>
    cases part with
    | int i =>
      rw [Json.same, beq_iff_eq]
      refine ⟨?_, fun ⟨_, alike⟩ => alike⟩
      rintro rfl
      exact ⟨Double.same_ofRatio _ _ _, rfl⟩
    | null | bool | real | string | array | object => simp [Json.same, Json.HeldAlike, equalsValue, Json.number?]
  | real y => cases part <;> simp [Json.same, Json.HeldAlike, equalsValue, Json.number?]
  | null | bool | array | object => cases part <;> simp [Json.HeldAlike, equalsValue]

/-- A captured value that is no text is compared as it is. -/
theorem equalsCaptured_iff (isJson : facts.json = some body)
    (plain : ∀ c ∈ path.toList, isBlank c = false ∧ c ∉ ['=', '!', '<', '>'])
    (found : Path.find body path = .ok value) (identifier : Capture.isIdentifier name = true)
    (apart : ∀ text, expected ≠ .string text) :
    EqualsCaptured draws scope facts path name expected ↔ equalsValue value expected = true := by
  obtain ⟨named, own⟩ := Template.isName_of_isIdentifier identifier
  obtain ⟨segments, parsed⟩ := Path.exists_parse_of_find found
  obtain ⟨reads, -⟩ := parse_body plain parsed (Template.isGiven_holeOf named) (by simp [Template.toList_holeOf])
    (readLiteral_holeOf named)
  have filled := @Template.resolveValue_capture draws scope name expected named own
  have expects : expectedOf draws (scope.capture name expected) (.body path) (.template (Template.holeOf name)) =
      .ok (.value expected) := by
    cases expected with
    | string text => exact absurd rfl (apart text)
    | null | bool | int | real | array | object => simp only [expectedOf, filled]
  obtain ⟨judged, -⟩ := evaluate_body isJson found expects ("body.".toList ++ path.toList) (Template.holeOf name).toList
  constructor
  · rintro ⟨assertion, again, passes⟩
    cases reads.symm.trans again
    rwa [judged] at passes
  · intro equal
    refine ⟨_, reads, ?_⟩
    rw [judged]
    exact equal

/-- A part that a segment picks out of a container equals another one where the two are the same. -/
theorem partEquals_iff (isJson : facts.json = some body)
    (plain : ∀ c ∈ path.toList, isBlank c = false ∧ c ∉ ['=', '!', '<', '>'])
    (found : Path.find body path = .ok container) (leads : Path.step container segment = .ok part)
    (identifier : Capture.isIdentifier name = true) :
    PartEquals draws scope facts path name segment part expected ↔ part.same expected = true := by
  have other (apart : ∀ text, expected ≠ .string text) :
      EqualsCaptured draws scope (placeOf facts path segment part).1 (placeOf facts path segment part).2 name expected ∧
        part.HeldAlike expected ↔ part.same expected = true := by
    rw [same_iff apart]
    unfold placeOf
    split
    · next nameable =>
      have inside := Path.find_behind found (fun c member => (plain c member).1) nameable leads
      rw [equalsCaptured_iff isJson (Path.plain_behind plain nameable) inside identifier apart]
    · have whole : Path.find part "" = .ok part := rfl
      rw [equalsCaptured_iff rfl (by simp) whole identifier apart]
  cases expected with
  | string text => cases part <;> simp [PartEquals, Json.same]
  | null | bool | int | real | array | object => exact other (by simp)

/-- A container of the body equals a captured one just where the parts of both are equal. Two arrays have the same length
and an equal part at every position; two objects have the same keys and an equal part under every key. -/
theorem containers_equal (isJson : facts.json = some body)
    (plain : ∀ c ∈ path.toList, isBlank c = false ∧ c ∉ ['=', '!', '<', '>'])
    (first : Capture.isIdentifier name = true) {partName : String} (second : Capture.isIdentifier partName = true)
    (draws : Template.Draws) (scope : Scope) :
    (∀ items others, Path.find body path = .ok (.array items) →
      (EqualsCaptured draws scope facts path name (.array others) ↔
        items.length = others.length ∧ ∀ (position : Nat) part expected, items[position]? = some part →
          others[position]? = some expected →
          PartEquals draws scope facts path partName (.index position) part expected)) ∧
    (∀ fields others, Path.find body path = .ok (.object fields) → Dict.Sorted fields → Dict.Sorted others →
      (EqualsCaptured draws scope facts path name (.object others) ↔
        (∀ key, key ∈ Dict.keys fields ↔ key ∈ Dict.keys others) ∧ ∀ key part expected,
          Dict.find? key fields = some part → Dict.find? key others = some expected →
          PartEquals draws scope facts path partName (.key key) part expected)) := by
  constructor
  · intro items others found
    have compared : equalsValue (.array items) (.array others) = Json.same (.array items) (.array others) := rfl
    rw [equalsCaptured_iff isJson plain found first (by simp), compared, Json.same_array]
    refine and_congr_right fun _ => forall₃_congr fun position part expected => forall₂_congr fun held _ => ?_
    have leads : Path.step (.array items) (.index position) = .ok part := by
      simp only [Path.step, Path.item, held]
    exact (partEquals_iff isJson plain found leads second).symm
  · intro fields others found sorted again
    have compared : equalsValue (.object fields) (.object others) = Json.same (.object fields) (.object others) := rfl
    rw [equalsCaptured_iff isJson plain found first (by simp), compared, Json.same_object sorted again]
    refine and_congr_right fun _ => forall₃_congr fun key part expected => forall₂_congr fun held _ => ?_
    have leads : Path.step (.object fields) (.key key) = .ok part := by
      simp only [Path.step, held]
    exact (partEquals_iff isJson plain found leads second).symm

/-- A body with a list and with an object whose only key has a blank in it. -/
def parted : Json := .object [("list", .array [.int 1]), ("sizes", .object [("per unit", .array [.int 1, .string "m"])])]

/-- The facts of a reply with that body. -/
def partedFacts : Facts :=
  ⟨200, 5, [], some parted, "\x7b\"list\":[1],\"sizes\":\x7b\"per unit\":[1,\"m\"]\x7d\x7d"⟩

/-- One, as a double. -/
def realOne : Json := .real (.finite false 4503599627370496 (-52))

/-- An integer equals a double on its own and not inside of a list, and an object equals itself. -/
theorem parted_equal :
    partedFacts.json = some parted ∧
      (∀ path ∈ ["list", "sizes", "list[0]"], ∀ c ∈ path.toList, isBlank c = false ∧ c ∉ ['=', '!', '<', '>']) ∧
      Capture.isIdentifier "v" = true ∧ Capture.isIdentifier "w" = true ∧
      Path.find parted "list" = .ok (.array [.int 1]) ∧
      Path.find parted "sizes" = .ok (.object [("per unit", .array [.int 1, .string "m"])]) ∧
      EqualsCaptured {} {} partedFacts "list[0]" "w" realOne ∧
      ¬EqualsCaptured {} {} partedFacts "list" "v" (.array [realOne]) ∧
      EqualsCaptured {} {} partedFacts "sizes" "v" (.object [("per unit", .array [.int 1, .string "m"])]) := by
  have isJson : partedFacts.json = some parted := rfl
  have plain : ∀ path ∈ ["list", "sizes", "list[0]"], ∀ c ∈ path.toList,
      isBlank c = false ∧ c ∉ ['=', '!', '<', '>'] := by
    intro path member
    simp only [List.mem_cons, List.not_mem_nil, or_false] at member
    rcases member with rfl | rfl | rfl <;> exact plain_of_all rfl
  have first : Capture.isIdentifier "v" = true := by decide
  have second : Capture.isIdentifier "w" = true := by decide
  have list : Path.find parted "list" = .ok (.array [.int 1]) := by rfl
  have sizes : Path.find parted "sizes" = .ok (.object [("per unit", .array [.int 1, .string "m"])]) := by rfl
  have item : Path.find parted "list[0]" = .ok (.int 1) := by rfl
  obtain ⟨arrays, -⟩ := containers_equal isJson (plain "list" (by decide)) first second {} {}
  obtain ⟨-, objects⟩ := containers_equal isJson (plain "sizes" (by decide)) first second {} {}
  refine ⟨isJson, plain, first, second, list, sizes, ?_, fun equal => ?_, ?_⟩
  · exact (equalsCaptured_iff isJson (plain "list[0]" (by decide)) item second (by simp [realOne])).mpr
      (by decide +kernel)
  · exact (((arrays _ _ list).mp equal).2 0 _ _ rfl rfl).2
  · refine (objects _ _ sizes (List.pairwise_singleton _ _) (List.pairwise_singleton _ _)).mpr
      ⟨fun key => Iff.rfl, fun key part expected held again => ?_⟩
    obtain rfl : part = expected := Option.some.inj (held.symm.trans again)
    have leads : Path.step (.object [("per unit", .array [.int 1, .string "m"])]) (.key key) = .ok part := by
      simp only [Path.step, held]
    have finite := Path.of_step Json.hereditary_finite leads
      (by simp [Json.Finite, Json.FiniteFields, Json.FiniteItems])
    exact (partEquals_iff isJson (plain "sizes" (by decide)) sizes leads second).mpr finite.same_self

end Assertion
end Runbook

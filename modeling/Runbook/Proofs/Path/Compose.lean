import Mathlib.Data.List.Forall2
import Runbook.Path.Extract
import Runbook.Proofs.Path.Render

/-!
Paths one behind the other. Two paths with a dot between them lead where the second one leads from what the first one
leads to, and fail as the first of these two that fails. Behind a path to an array, a position picks the same item as a
key and as a subscript.
-/

namespace Runbook.Path

open Runbook.Text

/-- A path and another one behind a dot. -/
def dotted (path inner : String) : String := path ++ "." ++ inner

/-- A path and a position in brackets behind it. -/
def bracketed (path : String) (position : Nat) : String := path ++ "[" ++ toString position ++ "]"

variable {text more : List Char} {segments front back : List Segment} {position : Nat} {body : Json}
  {path inner : String}

/-! What the texts write -/

/-- A dot joins two texts that write segments. -/
theorem Writes.dot (writes : Writes text front) (filled : text ≠ []) (again : Writes more back)
    (moreFilled : more ≠ []) : Writes (text ++ '.' :: more) (front ++ back) := by
  cases writes with
  | empty => exact absurd rfl filled
  | dotted first each =>
    cases again with
    | empty => exact absurd rfl moreFilled
    | dotted second others =>
      have joined := Writes.dotted (List.append_ne_nil_of_left_ne_nil first _) (List.rel_append each others)
      rw [List.flatten_append, intercalate_append first second] at joined
      simpa using joined

/-- A subscript behind a text belongs to the last part of it. -/
theorem Writes.subscript (writes : Writes text segments) (filled : text ≠ []) (last : IsSubscript more position) :
    Writes (text ++ more) (segments ++ [.index position]) := by
  cases writes with
  | empty => exact absurd rfl filled
  | dotted some each =>
    induction each with
    | nil => exact absurd rfl some
    | @cons part group parts groups isPart others ih =>
      cases others with
      | nil => simpa using Writes.dotted (List.cons_ne_nil _ _) (.cons (isPart.snoc last) .nil)
      | @cons next _ rest _ second later =>
        have tail : List.Forall₂ IsPart (next :: rest) _ := .cons second later
        have behind := intercalate_ne_nil (List.cons_ne_nil _ _) tail
        have head : Writes part group := by simpa using Writes.dotted (List.cons_ne_nil _ _) (.cons isPart .nil)
        have whole := head.dot isPart.filled (ih (List.cons_ne_nil _ _) behind) (by simp [behind])
        simpa [List.intercalate_cons_of_ne_nil] using whole

/-- Two paths with a dot between them are read as the segments of both. -/
theorem parse_dotted (first : parse path = .ok front) (second : parse inner = .ok back) (filled : path ≠ "")
    (innerFilled : inner ≠ "") (trimmed : IsTrimmed path.toList) (innerTrimmed : IsTrimmed inner.toList) :
    parse (dotted path inner) = .ok (front ++ back) := by
  have some : path.toList ≠ [] := by simpa using filled
  have more : inner.toList ≠ [] := by simpa using innerFilled
  have text : (dotted path inner).toList = path.toList ++ ['.'] ++ inner.toList := by
    simp [dotted, String.toList_append]
  rw [parse_eq_ok_iff, trimmed] at first
  rw [parse_eq_ok_iff, innerTrimmed] at second
  rw [parse_eq_ok_iff, text, isTrimmed_between trimmed some innerTrimmed more]
  simpa using first.dot some second more

/-- A path with a position in brackets behind it is read with this position as its last segment. -/
theorem parse_bracketed (read : parse path = .ok front) (filled : path ≠ "") (trimmed : IsTrimmed path.toList)
    (fits : position < positionLimit) : parse (bracketed path position) = .ok (front ++ [.index position]) := by
  have some : path.toList ≠ [] := by simpa using filled
  have subscript := isSubscript_segmentText fits false
  have text : (bracketed path position).toList = path.toList ++ (segmentText false (.index position)).toList := by
    simp [bracketed, segmentText, String.toList_append]
  have ends : IsTrimmed (bracketed path position).toList := by
    have close : IsTrimmed [']'] := by decide
    have inside := @isTrimmed_between ('[' :: (toString position).toList) _ _ trimmed some close (List.cons_ne_nil _ _)
    simpa [bracketed, String.toList_append] using inside
  rw [parse_eq_ok_iff, trimmed] at read
  rw [parse_eq_ok_iff, ends, text]
  exact read.subscript some subscript

/-! Where the segments lead -/

theorem follow_append (value : Json) (front back : List Segment) :
    follow value (front ++ back) = (follow value front >>= fun between => follow between back) := by
  induction front generalizing value with
  | nil => rfl
  | cons segment rest ih =>
    rw [List.cons_append, follow, follow]
    cases step value segment with
    | error obstacle => rfl
    | ok inner => exact ih inner

/-- A path that is read leads where its segments lead. -/
theorem extract_eq (read : parse path = .ok segments) :
    extract body path = (follow body segments).mapError fun obstacle => ⟨path, obstacle.message⟩ := by
  rw [parse, mapError_eq_ok_iff] at read
  rw [extract, find, read]
  rfl

theorem extract_eq_ok_iff (read : parse path = .ok segments) {value : Json} :
    extract body path = .ok value ↔ follow body segments = .ok value := by
  rw [extract_eq read, mapError_eq_ok_iff]

theorem extract_eq_error_iff (read : parse path = .ok segments) {error : PathError} :
    extract body path = .error error ↔
      ∃ obstacle, follow body segments = .error obstacle ∧ ⟨path, obstacle.message⟩ = error := by
  rw [extract_eq read, mapError_eq_error_iff]

/-- The text of a position picks the item at this position from an array. -/
theorem step_key_toString (items : List Json) (fits : position < positionLimit) :
    step (.array items) (.key (toString position)) = item items position := by
  have found := naturalBelow?_eq_some_iff.mpr ⟨isDecimal_toString position, fits⟩
  simp only [step, found]

theorem isKey_toString (position : Nat) : IsKey (toString position).toList where
  filled := toList_toString_ne_nil
  dotless member := absurd (isDigit_of_mem_toString member) (by decide)
  bracketless member := absurd (isDigit_of_mem_toString member) (by decide)

theorem parse_toString (position : Nat) : parse (toString position) = .ok [.key (toString position)] := by
  have written := Writes.dotted (List.cons_ne_nil _ _) (.cons (isPart_key (isKey_toString position)) .nil)
  rw [parse_eq_ok_iff, (isSolid_toString position).isTrimmed]
  simpa using written

/-- A segment that picks an item of an array is read behind a path in this way. -/
theorem extract_item {items : List Json} {segment : Segment} {longer : String} (read : parse path = .ok front)
    (leads : extract body path = .ok (.array items)) (readLonger : parse longer = .ok (front ++ [segment]))
    (picks : step (.array items) segment = item items position) :
    extract body longer = (item items position).mapError fun obstacle => ⟨longer, obstacle.message⟩ := by
  rw [extract_eq_ok_iff read] at leads
  rw [extract_eq readLonger, follow_append, leads, ← picks]
  show Except.mapError _ (step (.array items) segment >>= pure) = _
  rw [bind_pure]

/-- Paths compose. What stands behind a dot is followed from the value that the path in front of it leads to, and the
reason for a failure is that of the first of the two that fails. Where a path leads to an array, a position behind it
picks the same item, or is out of range of the same length, as a key and as a subscript. -/
theorem extract_dotted (first : parse path = .ok front) (second : parse inner = .ok back) (filled : path ≠ "")
    (innerFilled : inner ≠ "") (trimmed : IsTrimmed path.toList) (innerTrimmed : IsTrimmed inner.toList) :
    (∀ value, extract body (dotted path inner) = .ok value ↔
      ∃ between, extract body path = .ok between ∧ extract between inner = .ok value) ∧
    (∀ reason, extract body (dotted path inner) = .error ⟨dotted path inner, reason⟩ ↔
      extract body path = .error ⟨path, reason⟩ ∨
        ∃ between, extract body path = .ok between ∧ extract between inner = .error ⟨inner, reason⟩) ∧
    (∀ error, extract body (dotted path inner) = .error error → error.path = dotted path inner) ∧
    ∀ items position, extract body path = .ok (.array items) → position < positionLimit →
      ∀ longer ∈ [dotted path (toString position), bracketed path position],
        (∀ value, extract body longer = .ok value ↔ items[position]? = some value) ∧
        (items.length ≤ position → extract body longer = .error ⟨longer,
          "index " ++ toString position ++ " out of range (length " ++ toString items.length ++ ")"⟩) := by
  have both := parse_dotted first second filled innerFilled trimmed innerTrimmed
  refine ⟨fun value => ?_, fun reason => ?_, fun error failed => ?_, fun items position leads fits longer named => ?_⟩
  · simp only [extract_eq_ok_iff both, extract_eq_ok_iff first, extract_eq_ok_iff second, follow_append, bind_eq_ok_iff]
  · simp only [extract_eq_error_iff both, extract_eq_error_iff first, extract_eq_error_iff second,
      extract_eq_ok_iff first, follow_append, bind_eq_error_iff, PathError.mk.injEq, true_and]
    constructor
    · rintro ⟨obstacle, stuck | ⟨between, leads, stuck⟩, rfl⟩
      · exact .inl ⟨obstacle, stuck, rfl⟩
      · exact .inr ⟨between, leads, obstacle, stuck, rfl⟩
    · rintro (⟨obstacle, stuck, rfl⟩ | ⟨between, leads, obstacle, stuck, rfl⟩)
      · exact ⟨obstacle, .inl stuck, rfl⟩
      · exact ⟨obstacle, .inr ⟨between, leads, stuck⟩, rfl⟩
  · obtain ⟨obstacle, -, rfl⟩ := (extract_eq_error_iff both).mp failed
    rfl
  · have picked : extract body longer = (item items position).mapError fun obstacle => ⟨longer, obstacle.message⟩ := by
      rcases List.mem_pair.mp named with rfl | rfl
      · have solid := isSolid_toString position
        have key := parse_dotted first (parse_toString position) filled (by simp) trimmed solid.isTrimmed
        exact extract_item first leads key (step_key_toString items fits)
      · exact extract_item first leads (parse_bracketed first filled trimmed fits) rfl
    rw [picked, item]
    constructor
    · intro value
      rw [mapError_eq_ok_iff]
      cases items[position]? <;> simp
    · intro beyond
      rw [List.getElem?_eq_none beyond]
      rfl

/-- An object that holds an array, in which an array is the first item. -/
def orders : Json := .object [("data", .object [("items", .array [.array [.int 7, .int 8], .string "x"])])]

/-- The first failure gives the reason, also where the path behind the dot would fail as well. -/
theorem orders_dotted :
    extract orders (dotted "data.items" "0[1]") = .ok (.int 8) ∧
      extract orders (dotted "data.item" "0[1]") = .error ⟨"data.item.0[1]", "missing key 'item'"⟩ ∧
      extract orders (bracketed "data.items" 2) = .error ⟨"data.items[2]", "index 2 out of range (length 2)"⟩ := by
  have first : parse "data.items" = .ok [.key "data", .key "items"] := by rfl
  have missing : parse "data.item" = .ok [.key "data", .key "item"] := by rfl
  have second : parse "0[1]" = .ok [.key "0", .index 1] := by rfl
  have leads : extract orders "data.items" = .ok (.array [.array [.int 7, .int 8], .string "x"]) := by rfl
  obtain ⟨found, -, -, listed⟩ :=
    @extract_dotted _ _ orders _ _ first second (by decide) (by decide) (by decide) (by decide)
  obtain ⟨-, failed, -⟩ :=
    @extract_dotted _ _ orders _ _ missing second (by decide) (by decide) (by decide) (by decide)
  exact ⟨(found _).mpr ⟨_, leads, rfl⟩, (failed _).mpr (.inl rfl),
    (listed _ 2 leads (by decide) _ (by simp)).2 (by decide)⟩

end Runbook.Path

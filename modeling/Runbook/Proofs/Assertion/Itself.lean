import Runbook.Proofs.Assertion.Threshold
import Runbook.Proofs.Assertion.Words
import Runbook.Proofs.Json.Reals
import Runbook.Proofs.Json.Text

/-!
Values and their own texts in assertions. A part of the body is compared with a JSON text as a right-hand side.
Words and numbers equal their own texts. The text of a string is taken for what stands between its quotes, whatever
is escaped there. Arrays and objects are read by the reader of JSON documents, which may read another double than the
one that was written.
-/

namespace Runbook

open Runbook.Text

namespace Double

variable {x : Double}

/-- What starts with a bracket writes no double. -/
theorem read?_bracket {c : Char} (bracket : c = '[' ∨ c = '\x7b') (rest : List Char) : read? (c :: rest) = none := by
  have apart : c ≠ '+' ∧ c ≠ '-' ∧ c ≠ '.' ∧ isDigit c = false ∧ lowerChar c ≠ 'i' ∧ lowerChar c ≠ 'n' := by
    rcases bracket with rfl | rfl <;> decide
  obtain ⟨plus, minus, point, digitless, lower⟩ := apart
  have wordless {word : String} {d : Char} (starts : word.toList.head? = some d) (other : lowerChar c ≠ d) :
      (String.ofList ((c :: rest).map lowerChar) == word) = false := by
    refine beq_eq_false_iff_ne.mpr ?_
    rintro rfl
    rw [String.toList_ofList] at starts
    exact other (Option.some.inj starts)
  rw [read?_of_signless (by simpa using ⟨plus, minus⟩), @wordless "inf" 'i' rfl lower.1,
    @wordless "infinity" 'i' rfl lower.1, @wordless "nan" 'n' rfl lower.2, magnitude?_cons_eq_none digitless point]
  rfl

theorem onGrid_of_isNormal (normal : x.IsNormal) : x.OnGrid := by
  cases x with
  | finite => exact normal.2.1
  | infinite | notANumber => trivial

end Double

/-- A value that an assertion takes its JSON text for: a string without escaped characters, and an array or object whose
numbers are read from their texts as they are. -/
def Json.Verbatim : Json → Prop
  | string text => ∀ c ∈ text.toList, IsPlain c
  | array items => EveryItem IsReread items
  | object fields => EveryField IsReread fields
  | _ => True

namespace Assertion

variable {path : String} {value : Json} {x : Double}

/-- A literal is equal to a value just where something holds, whatever a scope holds. -/
def EqualWhere (path : String) (literal : Literal) (value : Json) (condition : Prop) : Prop :=
  ∃ expected, (∀ draws scope, expectedOf draws scope (.body path) literal = .ok (.value expected)) ∧
    (equalsValue value expected = true ↔ condition)

/-- A real double equals itself as a literal, also where the literal counts as an integer. -/
theorem equalsValue_real (real : x.isFinite = true) (grid : x.OnGrid) :
    equalsValue (.real x) (numberValue x) = true := by
  obtain ⟨other, number, isNumber, place⟩ := exists_number?_numberValue real grid
  have same : x.same other = true := (Double.same_iff (.of_isFinite real) isNumber).mpr place.symm
  cases found : numberValue x with
  | int | real =>
    rw [found] at number
    simp only [equalsValue, Json.number?] at number ⊢
    cases number
    exact same
  | null | bool | string | array | object =>
    rw [found] at number
    cases number

/-- The text of a string is the literal of what stands between its quotes. -/
theorem readLiteral_quote {text : String} (holeless : Template.hasHoles (Json.quote text) = false) :
    readLiteral (.body path) (Json.quote text).toList =
      .ok (.string (String.ofList (text.toList.flatMap fun c => (Json.escaped c).toList))) := by
  have quoted : unquoted? (Json.quote text).toList =
      some (text.toList.flatMap fun c => (Json.escaped c).toList) := by
    rw [Json.toList_quote]
    simp [unquoted?]
  unfold readLiteral
  rw [String.ofList_toList, holeless, quoted]
  simp

/-- What starts with a bracket is read as a document, and a string where it is none. -/
theorem readLiteral_bracket {text : String} {c : Char} {rest : List Char} (starts : text.toList = c :: rest)
    (bracket : c = '[' ∨ c = '\x7b') (holeless : Template.hasHoles text = false) :
    readLiteral (.body path) text.toList = .ok (match Json.parse? text with
      | some (.array items) => .json (.array items)
      | some (.object fields) => .json (.object fields)
      | _ => .string text) := by
  have apart : c ≠ '"' ∧ c ≠ '\'' ∧ c ≠ 't' ∧ c ≠ 'f' ∧ c ≠ 'n' := by
    rcases bracket with rfl | rfl <;> decide
  obtain ⟨double, single, yes, no, null⟩ := apart
  have unquoted : unquoted? text.toList = none := unquoted?_eq_none (by simpa [starts] using ⟨double, single⟩)
  have wordless {word : String} {d : Char} (first : word.toList.head? = some d) (other : c ≠ d) :
      (text == word) = false := by
    refine beq_eq_false_iff_ne.mpr ?_
    rintro rfl
    rw [starts] at first
    exact other (Option.some.inj first)
  have opens : (text.toList.head? == some '[' || text.toList.head? == some '\x7b') = true := by
    rw [starts]
    rcases bracket with rfl | rfl <;> rfl
  have unread : Double.read? text.toList = none := by rw [starts, Double.read?_bracket bracket]
  have bare := @readLiteral_unquoted text.toList (.body path) (by simp) (by rwa [String.ofList_toList]) unquoted
  simp only [readLiteral.bare, String.ofList_toList, @wordless "true" 't' rfl yes, @wordless "false" 'f' rfl no,
    @wordless "null" 'n' rfl null, Bool.false_eq_true, if_false, unread, opens, if_true] at bare
  exact bare

/-- An array or object equals what its text is read as where each of its numbers is read as the same number. -/
theorem equalWhere_reread {text : String} (contains : ∀ read, value.reread = some read →
    (∃ items, read = .array items) ∨ ∃ fields, read = .object fields)
    (unlike : ∀ text, value.same (.string text) = false) :
    EqualWhere path (match value.reread with
      | some (.array items) => .json (.array items)
      | some (.object fields) => .json (.object fields)
      | _ => .string text) value (value.Every Json.IsReread) := by
  unfold EqualWhere
  rw [← Json.exists_reread_iff]
  cases written : value.reread with
  | none => exact ⟨.string text, fun _ _ => rfl, by simp [equalsValue, unlike]⟩
  | some read =>
    rcases contains read written with ⟨items, rfl⟩ | ⟨fields, rfl⟩
    · exact ⟨.array items, fun _ _ => rfl, by simp [equalsValue]⟩
    · exact ⟨.object fields, fun _ _ => rfl, by simp [equalsValue]⟩

/-- The text of a value is a literal, and a value that no document is too deep for equals it where it is verbatim. -/
theorem exists_readLiteral_compact (canonical : value.Canonical) (holeless : Template.hasHoles value.compact = false) :
    ∃ literal, readLiteral (.body path) value.compact.toList = .ok literal ∧
      (value.depth ≤ Json.depthLimit → EqualWhere path literal value value.Verbatim) := by
  cases value with
  | null => exact ⟨.null, rfl, fun _ => ⟨.null, fun _ _ => rfl, iff_of_true rfl trivial⟩⟩
  | bool b => cases b <;> exact ⟨.bool _, rfl, fun _ => ⟨.bool _, fun _ _ => rfl, iff_of_true rfl trivial⟩⟩
  | int n =>
    refine ⟨_, readLiteral_toString_int (by simp) n, fun _ => ⟨_, fun _ _ => rfl, iff_of_true ?_ trivial⟩⟩
    rw [equalsValue_numberValue n (natAbs_lt_of_json canonical.1 canonical.2)]
    exact Double.same_ofRatio _ _ _
  | real x =>
    obtain ⟨real, normal⟩ := canonical
    refine ⟨_, readLiteral_decimal (by simp) (Double.read?_text .json real normal) real, fun _ =>
      ⟨_, fun _ _ => rfl, iff_of_true (equalsValue_real real (Double.onGrid_of_isNormal normal)) trivial⟩⟩
  | string text =>
    refine ⟨_, readLiteral_quote holeless, fun _ => ⟨_, fun _ _ => rfl, ?_⟩⟩
    have compared (other : String) : equalsValue (.string text) (.string other) = true ↔ other.toList = text.toList := by
      rw [String.toList_inj]
      simp [equalsValue, Json.same, @eq_comm _ text]
    rw [compared, String.toList_ofList, Json.flatMap_escaped_eq_self_iff]
    rfl
  | array items =>
    refine ⟨_, readLiteral_bracket (Json.toList_compact_array items) (.inl rfl) holeless, fun deep => ?_⟩
    rw [Json.parse?_compact canonical deep]
    refine equalWhere_reread (fun read written => ?_) fun _ => rfl
    obtain ⟨others, -, rfl⟩ := Option.map_eq_some_iff.mp written
    exact .inl ⟨others, rfl⟩
  | object fields =>
    refine ⟨_, readLiteral_bracket (Json.toList_compact_object fields) (.inr rfl) holeless, fun deep => ?_⟩
    rw [Json.parse?_compact canonical deep]
    refine equalWhere_reread (fun read written => ?_) fun _ => rfl
    obtain ⟨others, -, rfl⟩ := Option.map_eq_some_iff.mp written
    exact .inr ⟨others, rfl⟩

/-- The text of a value stands on a line as it is. -/
theorem isGiven_compact (canonical : value.Canonical) : IsGiven value.compact.toList ∧ value.compact.toList ≠ [] := by
  have single : '\n' ∉ value.compact.toList := (Json.visible_compact value).not_mem (by decide)
  suffices shape : IsTrimmed value.compact.toList ∧ value.compact.toList ≠ [] from ⟨⟨shape.1, single⟩, shape.2⟩
  have between {first last : Char} (front : isBlank first = false) (back : isBlank last = false) (inside : List Char) :
      IsTrimmed (first :: inside ++ [last]) ∧ first :: inside ++ [last] ≠ [] :=
    ⟨isTrimmed_append front (by simp) (isTrimmed_iff.mpr (by simpa using back)), by simp⟩
  cases value with
  | null => exact ⟨rfl, by decide⟩
  | bool b => cases b <;> exact ⟨rfl, by decide⟩
  | int n => exact ⟨(isGiven_toString_int n).trimmed, toString_int_ne_nil n⟩
  | real x =>
    have solid := isSolid_of_read? (Double.read?_text .json canonical.1 canonical.2) canonical.1
    exact ⟨solid.isTrimmed, solid.ne_nil⟩
  | string text =>
    rw [Json.compact, Json.toList_quote]
    exact between (by decide) (by decide) _
  | array items =>
    rw [Json.toList_compact_array]
    exact between (by decide) (by decide) _
  | object fields =>
    rw [Json.toList_compact_object]
    exact between (by decide) (by decide) _

/-- The compact JSON text of a value without placeholders is a right-hand side that can be read, and wherever a JSON body
holds the value, that part of the body equals the text just where the value is verbatim: always for null, the truth
values and all numbers; for a string where no character of it is escaped; and for an array or object where the reader of
JSON documents reads each double in it as it was. -/
theorem text_compared (canonical : value.Canonical)
    (plain : ∀ c ∈ path.toList, isBlank c = false ∧ c ∉ ['=', '!', '<', '>'])
    {segments : List Segment} (parsed : Path.parse path = .ok segments)
    (holeless : Template.hasHoles value.compact = false) :
    ∃ assertion, parse ("body." ++ path ++ " == " ++ value.compact) = .ok assertion ∧
      ∀ (reply : Reply) (body : Json), reply.json? = some body → Path.find body path = .ok value →
        ∀ (draws : Template.Draws) (scope : Scope),
          (evaluate draws scope (some (Engine.facts reply reply.json?)) assertion).pass = true ↔ value.Verbatim := by
  obtain ⟨literal, written, equalWhere⟩ := exists_readLiteral_compact canonical holeless
  obtain ⟨stands, filled⟩ := isGiven_compact canonical
  refine ⟨_, (parse_body plain parsed stands filled written).1, fun reply body isJson found draws scope => ?_⟩
  have deep : value.depth ≤ Json.depthLimit :=
    Path.of_find Json.hereditary_depth found (Json.canonical_of_parse? isJson).2
  obtain ⟨expected, expects, equal⟩ := equalWhere deep
  rw [(evaluate_body isJson found (expects draws scope) _ _).1]
  exact equal

/-- A note that has a backslash in it. -/
def note : Json := .string "a\\b"

/-- Tags with the same text among them. -/
def tags : Json := .array [note, .int 7]

/-- A body with the note and the tags. -/
def noted : Json := .object [("note", note), ("tags", tags)]

/-- A reply with that body. -/
def notedReply : Reply := { status := 200, body := "\x7b\"note\":\"a\\\\b\",\"tags\":[\"a\\\\b\",7]\x7d" }

/-- The tags equal their own text, and the note does not. -/
theorem noted_compared :
    notedReply.json? = some noted ∧ note.Canonical ∧ tags.Canonical ∧
      (∀ name ∈ ["note", "tags"], ∀ c ∈ name.toList, isBlank c = false ∧ c ∉ ['=', '!', '<', '>']) ∧
      (∀ name ∈ ["note", "tags"], Path.parse name = .ok [.key name]) ∧
      Template.hasHoles note.compact = false ∧ Template.hasHoles tags.compact = false ∧
      Path.find noted "note" = .ok note ∧ Path.find noted "tags" = .ok tags ∧
      (∃ assertion, parse ("body." ++ "note" ++ " == " ++ note.compact) = .ok assertion ∧
        (evaluate {} {} (some (Engine.facts notedReply notedReply.json?)) assertion).pass = false) ∧
      ∃ assertion, parse ("body." ++ "tags" ++ " == " ++ tags.compact) = .ok assertion ∧
        (evaluate {} {} (some (Engine.facts notedReply notedReply.json?)) assertion).pass = true := by
  have canonical : note.Canonical ∧ tags.Canonical := by
    simp [note, tags, Json.Canonical, Json.CanonicalItems, Json.leastInt, Json.greatestInt]
  have isJson : notedReply.json? = some noted := by
    have text : notedReply.body = noted.compact := by decide +kernel
    have writable : noted.Writable := by
      simp [noted, note, tags, Json.Writable, Json.WritableFields, Json.WritableItems, Json.leastInt, Json.greatestInt]
    rw [Reply.json?, Json.parse?, text, Json.read?_compact writable (by decide)]
    rfl
  have plain : ∀ name ∈ ["note", "tags"], ∀ c ∈ name.toList, isBlank c = false ∧ c ∉ ['=', '!', '<', '>'] := by
    intro name member
    simp only [List.mem_cons, List.not_mem_nil, or_false] at member
    rcases member with rfl | rfl <;> exact plain_of_all rfl
  have parsed : ∀ name ∈ ["note", "tags"], Path.parse name = .ok [.key name] := by
    intro name member
    simp only [List.mem_cons, List.not_mem_nil, or_false] at member
    rcases member with rfl | rfl <;> rfl
  have noHole : Template.hasHoles note.compact = false ∧ Template.hasHoles tags.compact = false := by decide +kernel
  have first : Path.find noted "note" = .ok note := by rfl
  have second : Path.find noted "tags" = .ok tags := by rfl
  obtain ⟨unequal, reads, fails⟩ :=
    text_compared canonical.1 (plain "note" (by decide)) (parsed "note" (by decide)) noHole.1
  obtain ⟨equal, readsToo, passes⟩ :=
    text_compared canonical.2 (plain "tags" (by decide)) (parsed "tags" (by decide)) noHole.2
  refine ⟨isJson, canonical.1, canonical.2, plain, parsed, noHole.1, noHole.2, first, second,
    ⟨unequal, reads, Bool.eq_false_iff.mpr fun same => ?_⟩, equal, readsToo, ?_⟩
  · have verbatim := (fails notedReply noted isJson first {} {}).mp same
    exact absurd (verbatim '\\' (by decide)) (by decide)
  · exact (passes notedReply noted isJson second {} {}).mpr ⟨trivial, trivial, trivial⟩

end Assertion
end Runbook

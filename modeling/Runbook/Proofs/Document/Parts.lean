import Runbook.Document.Decode
import Runbook.Document.Encode
import Runbook.History.Entry
import Runbook.Proofs.Assertion.Source
import Runbook.Proofs.Control
import Runbook.Proofs.Json.Compact
import Runbook.Proofs.Json.Parts
import Runbook.Proofs.Time.Reading

/-!
The parts of documents. The fields of the records hold numbers of their sizes, finite doubles, dictionaries with their
keys in order, assertions that were read from a line, and times in a year of four digits.
-/

namespace Runbook

open Document

@[simp] theorem StepStatus.ofName?_name (status : StepStatus) : ofName? status.name = some status := by
  cases status <;> decide

@[simp] theorem RunStatus.ofName?_name (status : RunStatus) : ofName? status.name = some status := by
  cases status <;> decide

structure StepOptions.Fits (options : StepOptions) : Prop where
  timeout : ∀ millis ∈ options.timeout, millis < wordBound 64
  retry : options.retry < wordBound 32
  retryWait : options.retryWait < wordBound 64

/-- The coordinates of a position are real numbers. -/
structure Position.Fits (position : Position) : Prop where
  x : position.x.isFinite = true
  y : position.y.isFinite = true

structure Step.Fits (step : Step) : Prop where
  headers : step.headers.Sorted
  /-- An assertion is made from a line only. -/
  asserts : ∀ assertion ∈ step.asserts, ∃ line, Assertion.parse line = .ok assertion
  sortOrder : step.sortOrder < wordBound 32
  position : ∀ position ∈ step.position, position.Fits
  options : step.options.Fits

def Edge.Fits (edge : Edge) : Prop := edge.mapping.Sorted

def Flow.Fits : Flow → Prop
  | script steps => ∀ step ∈ steps, step.Fits
  | graph steps edges => (∀ step ∈ steps, step.Fits) ∧ ∀ edge ∈ edges, edge.Fits

def Scenario.Fits (scenario : Scenario) : Prop := scenario.flow.Fits

def RequestSnapshot.Fits (snapshot : RequestSnapshot) : Prop := snapshot.headers.Sorted

structure ResponseSnapshot.Fits (snapshot : ResponseSnapshot) : Prop where
  status : snapshot.status < wordBound 16
  headers : snapshot.headers.Sorted

structure StepResult.Fits (result : StepResult) : Prop where
  request : ∀ snapshot ∈ result.request, snapshot.Fits
  response : ∀ snapshot ∈ result.response, snapshot.Fits
  millis : result.millis < wordBound 64
  captured : result.captured.Sorted
  values : ∀ pair ∈ result.captured, pair.2.Canonical

structure Run.Fits (run : Run) : Prop where
  startedAt : ∀ instant ∈ run.startedAt, instant.IsDated
  finishedAt : ∀ instant ∈ run.finishedAt, instant.IsDated
  results : ∀ result ∈ run.results, result.Fits

structure HistoryEntry.Fits (entry : HistoryEntry) : Prop where
  id : -(Nat.pow 2 63 : Int) ≤ entry.id ∧ entry.id < Nat.pow 2 63
  timestamp : entry.timestamp.IsDated
  requestHeaders : entry.requestHeaders.Sorted
  status : ∀ status ∈ entry.status, status < wordBound 16
  responseHeaders : entry.responseHeaders.Sorted
  millis : entry.millis < wordBound 64

def StepEvent.Fits (event : StepEvent) : Prop := ∀ millis ∈ event.millis, millis < wordBound 64

def ProgressEvent.Fits : ProgressEvent → Prop
  | step event => event.Fits
  | done .. => True

end Runbook

/-!
The parts of a document read back. Each field of an object is found under its name in whatever order the fields stand,
and what was written of a part is read from it.
-/

namespace Runbook.Document

open Readable Json

variable {α β : Type} {arrange : Json → Json} {fields written : List (String × Json)} {names : List String}

/-- A computation that may fail goes on with what its first part gives. -/
theorem bind_eq_some {first : Option α} {next : α → Option β} {value : α} {result : β} (given : first = some value)
    (rest : next value = some result) : (first >>= next) = some result := by
  rw [given]
  exact rest

section Fields

/-- Fields among which each of some given ones is found under its name, with its value arranged. -/
def Offers (arrange : Json → Json) (fields written : List (String × Json)) : Prop :=
  ∀ field ∈ fields, slot? [field.1] written = some (some (arrange field.2))

/-- A field is found among fields of different names. -/
theorem slot?_of_mem {field : String × Json} (distinct : (written.map Prod.fst).Nodup) (member : field ∈ written) :
    slot? [field.1] written = some (some field.2) := by
  have alone : (written.filter fun other => [field.1].contains other.1) = [field] := by
    induction written with
    | nil => cases member
    | cons first rest ih =>
      obtain ⟨apart, later⟩ := List.nodup_cons.mp distinct
      rcases List.mem_cons.mp member with rfl | inside
      · have none : (rest.filter fun other => [field.1].contains other.1) = [] := by
          apply List.filter_eq_nil_iff.mpr
          intro other held same
          have named : other.1 = field.1 := by simpa using same
          exact apart (named ▸ List.mem_map_of_mem held)
        rw [List.filter_cons_of_pos (by simp), none]
      · have other : first.1 ≠ field.1 := fun same => apart (same ▸ List.mem_map_of_mem inside)
        rw [List.filter_cons_of_neg (by simpa using other), ih later inside]
  rw [slot?, alone]

/-- An object offers its fields in whatever order they stand. -/
theorem exists_offers (fields : List (String × Json)) (arranges : Arranges arrange)
    (distinct : (fields.map Prod.fst).Nodup) :
    ∃ written, arrange (.object fields) = .object written ∧ (written.map Prod.fst).Nodup ∧
      Offers arrange fields written := by
  obtain ⟨written, object, perm⟩ := arranges.object fields distinct
  have names : (written.map Prod.fst).Nodup := by
    apply (perm.map Prod.fst).nodup_iff.mpr
    rwa [List.map_map]
  refine ⟨written, object, names, fun field member => ?_⟩
  exact slot?_of_mem names (perm.mem_iff.mpr (List.mem_map_of_mem member))

/-- A record is made of the values of its fields, in the order in which they are declared. -/
theorem Offers.record? (offers : Offers arrange fields written) :
    (Parts.named written).record? (fields.map fun field => [field.1]) =
      some ⟨fields.map fun field => some (arrange field.2), false⟩ := by
  have slots : (fields.map fun field => [field.1]).mapM (slot? · written) =
      some (fields.map fun field => some (arrange field.2)) := mapM_map_eq_some offers
  change Option.map _ ((fields.map fun field => [field.1]).mapM (slot? · written)) = _
  rw [slots]
  rfl

/-- A record is read from fields with the names of its declaration, in order. -/
theorem record?_arrange (arranges : Arranges arrange) (named : fields.map Prod.fst = names)
    (distinct : names.Nodup) : record? names (arrange (.object fields)) =
      some ⟨fields.map fun field => some (arrange field.2), false⟩ := by
  subst named
  obtain ⟨written, object, -, offers⟩ := exists_offers fields arranges distinct
  rw [object, Document.record?, List.map_map]
  exact offers.record?

/-- A tag is read in front of the fields that stand beside it. -/
theorem tagged?_arrange (tag name : String) (fields : List (String × Json)) (arranges : Arranges arrange)
    (distinct : (tag :: fields.map Prod.fst).Nodup) :
    ∃ others, tagged? tag (arrange (.object ((tag, .string name) :: fields))) = some (name, .named others) ∧
      Offers arrange fields others := by
  obtain ⟨written, object, -, offers⟩ := exists_offers ((tag, .string name) :: fields) arranges distinct
  have held : slot? [tag] written = some (some (.string name)) := by
    rw [offers _ List.mem_cons_self, arranges.string]
  refine ⟨written.filter (·.1 != tag), ?_, fun field member => ?_⟩
  · rw [object]
    exact bind_eq_some rfl (bind_eq_some held rfl)
  · -- What is left out has another name than the field.
    have other : field.1 ≠ tag := by
      intro same
      exact (List.nodup_cons.mp distinct).1 (same ▸ List.mem_map_of_mem member)
    have kept : ((written.filter (·.1 != tag)).filter fun other => [field.1].contains other.1) =
        written.filter fun other => [field.1].contains other.1 := by
      rw [List.filter_filter]
      apply List.filter_congr
      intro held _
      by_cases same : held.1 = field.1
      · simp [same, other]
      · simp [same]
    rw [slot?, kept]
    exact offers field (List.mem_cons_of_mem _ member)

end Fields

section Parts

variable {record : Record Json} {index : Nat} {node : Json} {read : Json → Option α}

theorem need_eq {value : α} (given : record.slots[index]? = some (some node)) (reads : read node = some value) :
    record.need index read = some value := by
  rw [Record.need, Record.slot, given]
  exact reads

theorem orElse_eq {value : α} (default : α) (given : record.slots[index]? = some (some node))
    (reads : read node = some value) : record.orElse index default read = some value := by
  rw [Record.orElse, Record.slot, given]
  exact reads

/-- A value that may be absent is read from a node; null stands for nothing. -/
def ReadsOptional (read : Json → Option α) (node : Json) : Option α → Prop
  | some value => isNull node = false ∧ read node = some value
  | none => isNull node = true

theorem ReadsOptional.eq {value : Option α} (reads : ReadsOptional read node value) :
    (if isNull node then some none else (read node).map some) = some value := by
  cases value with
  | none => exact if_pos reads
  | some value => rw [if_neg (by rw [reads.1]; exact Bool.false_ne_true), reads.2, Option.map_some]

theorem optional_eq {value : Option α} (given : record.slots[index]? = some (some node))
    (reads : ReadsOptional read node value) : record.optional index read = some value := by
  rw [Record.optional, Record.slot, given]
  exact reads.eq

theorem nullable_eq {value : Option α} (given : record.slots[index]? = some (some node))
    (reads : ReadsOptional read node value) : record.nullable index read = some value := by
  rw [Record.nullable, Record.orElse, Record.slot, given]
  exact reads.eq

end Parts

section Values

variable (arranges : Arranges arrange)

include arranges

theorem text?_arrange (text : String) : text? (arrange (.string text)) = some text := by
  rw [arranges.string]
  rfl

theorem bool?_arrange (value : Bool) : bool? (arrange (.bool value)) = some value := by
  rw [arranges.bool]
  rfl

theorem natBelow?_arrange {bound n : Nat} (below : n < bound) : natBelow? bound (arrange (.int n)) = some n := by
  have nat : nat? (Json.int n) = some n := by simp [nat?]
  rw [arranges.int, natBelow?, nat, Option.filter_some, if_pos (decide_eq_true below)]

theorem int64?_arrange {n : Int} (least : -(Nat.pow 2 63 : Int) ≤ n) (greatest : n < Nat.pow 2 63) :
    int64? (arrange (.int n)) = some n := by
  have int : int? (Json.int n) = some n := rfl
  rw [arranges.int, int64?, int, Option.filter_some, if_pos (by simpa using ⟨least, greatest⟩)]

theorem double?_arrange {x : Double} (finite : x.isFinite = true) : double? (arrange (.ofDouble x)) = some x := by
  rw [Json.ofDouble, if_pos finite, arranges.real]
  rfl

/-- A name out of a fixed set is written as a text. -/
theorem name?_arrange (name : String) : name? (arrange (.string name)) = some name := by
  rw [arranges.string]
  rfl

/-- A list is read from what is written of its items. -/
theorem listOf?_arrange {read : Json → Option α} {write : α → Json} {items : List α}
    (reads : ∀ item ∈ items, read (arrange (write item)) = some item) :
    listOf? read (arrange (.array (items.map write))) = some items := by
  have all : ((items.map write).map arrange).mapM read = some (items.map id) := by
    rw [List.map_map]
    exact mapM_map_eq_some reads
  rw [arranges.array, listOf?]
  change ((items.map write).map arrange).mapM read = _
  rw [all, List.map_id]

theorem textList?_arrange (texts : List String) : listOf? text? (arrange (.ofTextList texts)) = some texts :=
  listOf?_arrange arranges fun text _ => text?_arrange arranges text

/-- A dictionary is read from what is written of its values. -/
theorem dictOf?_arrange {read : Json → Option α} {write : α → Json} {dict : Dict α} (sorted : dict.Sorted)
    (reads : ∀ pair ∈ dict, read (arrange (write pair.2)) = some pair.2) :
    dictOf? read (arrange (.object (dict.mapValues write))) = some dict := by
  have distinct : ((dict.mapValues write).map Prod.fst).Nodup := by
    rw [Dict.mapValues, List.map_map]
    exact sorted.nodup
  have inOrder : ((dict.mapValues write).map fun field => (field.1, arrange field.2)).mapM
      (fun field => (read field.2).map fun value => (field.1, value)) = some (dict.map id) := by
    rw [Dict.mapValues, List.map_map]
    apply mapM_map_eq_some
    intro pair member
    exact congrArg (Option.map _) (reads pair member)
  rw [List.map_id] at inOrder
  obtain ⟨written, object, perm⟩ := arranges.object _ distinct
  obtain ⟨pairs, given, order⟩ := exists_mapM_of_perm perm inOrder
  rw [object, dictOf?]
  change (Option.map Dict.ofPairs (written.mapM _)) = _
  rw [given, Option.map_some, Dict.ofPairs_eq_of_perm sorted order]

theorem texts?_arrange {texts : Dict String} (sorted : texts.Sorted) :
    texts? (arrange (.ofTexts texts)) = some texts :=
  dictOf?_arrange arranges sorted fun pair _ => text?_arrange arranges pair.2

/-- Canonical values are read as they are. -/
theorem jsonDict?_arrange {dict : Dict Json} (sorted : dict.Sorted) (canonical : ∀ pair ∈ dict, pair.2.Canonical) :
    dictOf? json? (arrange (.object dict)) = some dict := by
  have same : dict.mapValues id = dict := List.map_id dict
  have read : dictOf? json? (arrange (.object (dict.mapValues id))) = some dict :=
    dictOf?_arrange arranges sorted fun pair member => congrArg some (arranges.canonical pair.2 (canonical pair member))
  rwa [same] at read

/-- A part that may be absent is read from null, or from what is written of it. -/
theorem optional_arrange {read : Json → Option α} {write : α → Json} {value : Option α}
    (reads : ∀ held ∈ value, isNull (arrange (write held)) = false ∧ read (arrange (write held)) = some held) :
    ReadsOptional read (arrange ((value.map write).getD .null)) value := by
  cases value with
  | none =>
    change isNull (arrange .null) = true
    rw [arranges.null]
    rfl
  | some held => exact reads held rfl

/-- An object is not null. -/
theorem isNull_arrange_object (distinct : (fields.map Prod.fst).Nodup) : isNull (arrange (.object fields)) = false := by
  obtain ⟨written, object, -⟩ := exists_offers fields arranges distinct
  rw [object]
  rfl

theorem optionalText_arrange (text : Option String) : ReadsOptional text? (arrange (.ofText? text)) text := by
  have written : Json.ofText? text = (text.map Json.string).getD .null := by cases text <;> rfl
  rw [written]
  apply optional_arrange arranges
  intro held _
  rw [arranges.string]
  exact ⟨rfl, rfl⟩

theorem optionalNat_arrange {bound : Nat} {value : Option Nat} (below : ∀ n ∈ value, n < bound) :
    ReadsOptional (natBelow? bound) (arrange (.ofNat? value)) value := by
  have written : Json.ofNat? value = (value.map fun n : Nat => Json.int n).getD .null := by cases value <;> rfl
  rw [written]
  apply optional_arrange arranges
  intro held member
  refine ⟨?_, natBelow?_arrange arranges (below held member)⟩
  rw [arranges.int]
  rfl

end Values
end Runbook.Document

/-!
Assertions in documents: an assertion is written as the line that it keeps, and that line is read as the same assertion.
-/

namespace Runbook.Assertion

open Runbook.Text

/-- A text in a document is an assertion where it is the line of one. -/
theorem assertion?_string {line : String} {assertion : Assertion} (read : parse line = .ok assertion) :
    Document.assertion? (Json.string line) = some assertion := by
  simp [Document.assertion?, Readable.text?, read, Except.toOption]

/-- The line that an assertion keeps splits as the line that it was read from does. -/
theorem takeParts_source {line : String} {assertion : Assertion} (read : parse line = .ok assertion) :
    takeParts assertion.source.toList = takeParts line.toList := by
  rw [(source_of_parse read).1, toList_trimmed, takeParts_trim]

/-- An assertion is read again from the line that it keeps, and from that line as a string of JSON text. The line
splits into the same parts as the one that the assertion was first read from, and so does every line that differs
from it by blanks around it. -/
theorem parse_encoded {line : String} {assertion : Assertion} (read : parse line = .ok assertion) :
    parse assertion.source = .ok assertion ∧
      (∀ padded, trimmed padded = trimmed line →
        takeParts padded.toList = takeParts assertion.source.toList ∧ parse padded = .ok assertion) ∧
      Document.assertion? (Json.string assertion.source) = some assertion ∧
      (Json.read? (Json.string assertion.source).compact).bind Document.assertion? = some assertion := by
  have again := parse_source read
  have encoded : Json.read? (Json.string assertion.source).compact = some (.string assertion.source) :=
    Json.read?_compact trivial (Nat.zero_le _)
  refine ⟨again, fun padded same => ?_, assertion?_string again, by rw [encoded]; exact assertion?_string again⟩
  have reread : parse padded = .ok assertion := by rw [← parse_trimmed padded, same, parse_trimmed, read]
  exact ⟨(takeParts_source reread).symm, reread⟩

/-- The assertion that the value under `exists` is at least negative zero. -/
def existsAtLeast : Assertion := ⟨.body "exists", .atLeast, some (.number (.zero true)), "body.exists\t>=  -0.0"⟩

/-- A line with blanks of several kinds in front, inside and behind. -/
theorem exists_at_least_encoded :
    parse " \u3000body.exists\t>=  -0.0 \t" = .ok existsAtLeast ∧
      parse existsAtLeast.source = .ok existsAtLeast ∧
      (Json.read? (Json.string existsAtLeast.source).compact).bind Document.assertion? = some existsAtLeast := by
  have read : parse " \u3000body.exists\t>=  -0.0 \t" = .ok existsAtLeast := by rfl
  obtain ⟨again, -, -, decoded⟩ := parse_encoded read
  exact ⟨read, again, decoded⟩

end Runbook.Assertion

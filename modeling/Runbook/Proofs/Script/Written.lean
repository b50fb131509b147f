import Runbook.Proofs.Assertion.Source
import Runbook.Proofs.Text.Blank
import Runbook.Proofs.Text.Decimal
import Runbook.Proofs.Text.Lines
import Runbook.Script.Basic

/-!
Scripts as they are written: a title, and for each step its heading and one request block with the request line, the
headers, the body, and the three sections. `Writable` tells which steps the notation can hold.
-/

namespace Runbook

open Runbook.Text

namespace Script

/-- A name and a value on one line. -/
def pairLine (name value : String) : String := name ++ ": " ++ value

/-- The lines of a body, if there is one. -/
def writeBody : Option String → List String
  | some text => (splitAt '\n' text.toList).map String.ofList
  | none => []

/-- The lines of the options section. -/
def writeOptions (id : String) (options : StepOptions) : List String :=
  pairLine "id" id :: ((options.timeout.map fun millis => pairLine "timeout" (toString millis ++ "ms")).toList ++
    [pairLine "retry" (toString options.retry), pairLine "retry_wait" (toString options.retryWait ++ "ms")])

/-- The lines of a block behind its request line. -/
def writeSections (step : Step) : List String :=
  step.headers.map (fun header => pairLine header.1 header.2) ++ "" :: writeBody step.body ++
    "" :: "[Captures]" :: step.captures.map (fun capture => pairLine capture.name capture.path) ++
    "[Asserts]" :: step.asserts.map Assertion.source ++
    "[Options]" :: writeOptions step.id step.options

/-- The request line of a step. -/
def writeRequest (step : Step) : String := step.method.name ++ " " ++ step.url

/-- The lines of a step: its heading, and its block between two fences. -/
def writeStep (step : Step) : List String :=
  ("## " ++ step.name) :: (String.ofList fence ++ "kest") :: writeRequest step :: writeSections step ++
    [String.ofList fence]

/-- The text of a script: each of its lines is ended by a line feed. -/
def write (name : String) (steps : List Step) : String :=
  String.join ((("# " ++ name) :: steps.flatMap writeStep).map (· ++ "\n"))

/-- A text can be the title of a script or a step. -/
structure IsTitle (text : String) : Prop where
  filled : text ≠ ""
  trimmed : IsTrimmed text.toList
  plain : '\n' ∉ text.toList

instance (text : String) : Decidable (IsTitle text) :=
  decidable_of_iff (text ≠ "" ∧ IsTrimmed text.toList ∧ '\n' ∉ text.toList)
    ⟨fun ⟨filled, trimmed, plain⟩ => ⟨filled, trimmed, plain⟩, fun title => ⟨title.filled, title.trimmed, title.plain⟩⟩

/-- Of the texts of a step that may hold blanks, none but the body runs over several lines. -/
structure IsInline (step : Step) : Prop where
  id : '\n' ∉ step.id.toList
  headers : ∀ header ∈ step.headers, '\n' ∉ header.1.toList ∧ '\n' ∉ header.2.toList
  captures : ∀ capture ∈ step.captures, '\n' ∉ capture.name.toList ∧ '\n' ∉ capture.path.toList
  asserts : ∀ assertion ∈ step.asserts, '\n' ∉ assertion.source.toList

/-- A name can stand in front of a colon: it is one word without a colon, and does not make a line a comment. -/
structure IsKey (name : List Char) : Prop where
  solid : IsSolid name
  colon : ':' ∉ name
  comment : name.head? ≠ some '#'

instance (name : List Char) : Decidable (IsKey name) :=
  decidable_of_iff (IsSolid name ∧ ':' ∉ name ∧ name.head? ≠ some '#')
    ⟨fun ⟨solid, colon, comment⟩ => ⟨solid, colon, comment⟩, fun key => ⟨key.solid, key.colon, key.comment⟩⟩

/-- A line of a body neither ends the block or opens a section, nor loses its last character. -/
structure IsBodyLine (line : List Char) : Prop where
  unreturned : line.getLast? ≠ some '\r'
  unfenced : trim line ≠ fence
  unmarked : marker? (String.ofList line) = none

instance (line : List Char) : Decidable (IsBodyLine line) :=
  decidable_of_iff (line.getLast? ≠ some '\r' ∧ trim line ≠ fence ∧ marker? (String.ofList line) = none)
    ⟨fun ⟨unreturned, unfenced, unmarked⟩ => ⟨unreturned, unfenced, unmarked⟩,
      fun held => ⟨held.unreturned, held.unfenced, held.unmarked⟩⟩

/-- A step that can be written. The headers are sorted as in every dictionary, and the numbers fit the words that keep
them; those that are read as durations are doubles too. -/
structure Writable (step : Step) : Prop where
  id : step.id ≠ "" ∧ IsTrimmed step.id.toList
  name : ∃ title, step.name = "Step " ++ toString step.sortOrder ++ ": " ++ title ∧ IsTitle title
  url : IsSolid step.url.toList
  headers : ∀ header ∈ step.headers, IsKey header.1.toList ∧ IsTrimmed header.2.toList
  sorted : step.headers.Sorted
  body : ∀ text ∈ step.body, text ≠ "" ∧ IsTrimmed text.toList ∧ ∀ line ∈ splitAt '\n' text.toList, IsBodyLine line
  captures : ∀ capture ∈ step.captures, Capture.check capture.name capture.path = .ok () ∧
    IsTrimmed capture.path.toList
  asserts : ∀ assertion ∈ step.asserts, ∃ line, Assertion.parse line = .ok assertion
  timeout : ∀ millis ∈ step.options.timeout, millis ≤ Nat.pow 2 53
  retry : step.options.retry < Nat.pow 2 32
  retryWait : step.options.retryWait ≤ Nat.pow 2 53
  position : step.position = none
  sortOrder : step.sortOrder ≤ greatestNumber
  inline : IsInline step

end Script
end Runbook

/-!
The lines of a written block: each of them is one line, and none of them is a fence.
-/

namespace Runbook.Script

open Runbook.Text

/-- A text can stand as a line in a block. -/
structure IsContent (text : String) : Prop where
  plain : '\n' ∉ text.toList
  unreturned : text.toList.getLast? ≠ some '\r'
  unfenced : trim text.toList ≠ fence

theorem ne_fence_of_mem {text : List Char} {c : Char} (member : c ∈ text) (solid : isBlank c = false)
    (apart : c ∉ fence) : trim text ≠ fence := fun same => apart (same ▸ mem_trim member solid)

theorem toList_pairLine (name value : String) :
    (pairLine name value).toList = name.toList ++ ':' :: ' ' :: value.toList := by
  simp [pairLine]

/-- A line of a name and a trimmed value. -/
theorem isContent_pairLine {name value : String} (name_plain : '\n' ∉ name.toList) (value_plain : '\n' ∉ value.toList)
    (trimmed : IsTrimmed value.toList) : IsContent (pairLine name value) where
  plain := by simp [toList_pairLine, name_plain, value_plain]
  unreturned := by
    have split : (pairLine name value).toList = name.toList ++ [':', ' '] ++ value.toList := by simp [toList_pairLine]
    rw [split]
    by_cases empty : value.toList = []
    · simp [empty]
    · rw [List.getLast?_append_of_ne_nil _ empty]
      exact trimmed.getLast?_ne (by decide)
  unfenced := ne_fence_of_mem (c := ':') (by simp [toList_pairLine]) (by decide) (by decide)

/-- A trimmed line that holds anything other than backticks. -/
theorem isContent_of_trimmed {text : String} (plain : '\n' ∉ text.toList) (trimmed : IsTrimmed text.toList) {c : Char}
    (member : c ∈ text.toList) (solid : isBlank c = false) (apart : c ∉ fence) : IsContent text :=
  ⟨plain, trimmed.getLast?_ne (by decide), ne_fence_of_mem member solid apart⟩

/-- Milliseconds with their unit are one word. -/
theorem isSolid_millis (n : Nat) : IsSolid (toString n ++ "ms").toList := by
  rw [String.toList_append]
  exact (isSolid_toString n).append (by decide)

theorem isSolid_name (method : Method) : IsSolid method.name.toList := by
  cases method <;> decide

/-- The name of a method starts with a letter. -/
theorem exists_initial (method : Method) :
    ∃ c rest, method.name.toList = c :: rest ∧ isBlank c = false ∧ (c == '#') = false ∧ c ∉ fence := by
  cases method <;> exact ⟨_, _, rfl, by decide, by decide, by decide⟩

theorem toList_writeRequest (step : Step) :
    (writeRequest step).toList = step.method.name.toList ++ ' ' :: step.url.toList := by
  simp [writeRequest]

theorem isTrimmed_writeRequest {step : Step} (solid : IsSolid step.url.toList) :
    IsTrimmed (writeRequest step).toList := by
  obtain ⟨c, rest, name, dense, -⟩ := exists_initial step.method
  have split : (writeRequest step).toList = c :: (rest ++ [' ']) ++ step.url.toList := by
    simp [toList_writeRequest, name]
  rw [split]
  exact isTrimmed_append dense solid.ne_nil solid.isTrimmed

theorem isContent_writeRequest {step : Step} (solid : IsSolid step.url.toList) : IsContent (writeRequest step) := by
  obtain ⟨c, rest, name, dense, -, apart⟩ := exists_initial step.method
  have named : '\n' ∉ step.method.name.toList := (isSolid_name step.method).not_mem (by decide)
  have plain : '\n' ∉ (writeRequest step).toList := by
    simp [toList_writeRequest, named, solid.not_mem (c := '\n') (by decide)]
  exact isContent_of_trimmed plain (isTrimmed_writeRequest solid) (by simp [toList_writeRequest, name]) dense apart

theorem isContent_writeBody {body : Option String}
    (held : ∀ text ∈ body, ∀ line ∈ splitAt '\n' text.toList, IsBodyLine line) :
    ∀ text ∈ writeBody body, IsContent text := by
  cases body with
  | none => simp [writeBody]
  | some text =>
    intro line member
    obtain ⟨piece, inside, rfl⟩ := List.mem_map.mp member
    obtain ⟨unreturned, unfenced, -⟩ := held text rfl piece inside
    exact ⟨by simpa using not_mem_of_mem_splitAt inside, by simpa using unreturned, by simpa using unfenced⟩

theorem isContent_writeOptions {id : String} (options : StepOptions) (plain : '\n' ∉ id.toList)
    (trimmed : IsTrimmed id.toList) : ∀ text ∈ writeOptions id options, IsContent text := by
  have word {value : String} (solid : IsSolid value.toList) {name : String} (named : '\n' ∉ name.toList) :
      IsContent (pairLine name value) :=
    isContent_pairLine named (solid.not_mem (by decide)) solid.isTrimmed
  unfold writeOptions
  simp only [List.forall_mem_cons, List.forall_mem_append, Option.mem_toList, Option.map_eq_some_iff,
    List.not_mem_nil, false_implies, implies_true, and_true]
  refine ⟨isContent_pairLine (by decide) plain trimmed, ?_, word (isSolid_toString _) (by decide),
    word (isSolid_millis _) (by decide)⟩
  rintro text ⟨millis, -, rfl⟩
  exact word (isSolid_millis millis) (by decide)

/-- Each line of a written block is one line and no fence. -/
theorem Writable.isContent {step : Step} (writable : Writable step) :
    ∀ text ∈ writeRequest step :: writeSections step, IsContent text := by
  have inline := writable.inline
  have empty : IsContent "" := ⟨by decide, by decide, by decide⟩
  have captures : IsContent "[Captures]" := ⟨by decide, by decide, by decide⟩
  have asserts : IsContent "[Asserts]" := ⟨by decide, by decide, by decide⟩
  have options : IsContent "[Options]" := ⟨by decide, by decide, by decide⟩
  unfold writeSections
  simp only [List.forall_mem_cons, List.forall_mem_append, List.forall_mem_map, empty, captures, asserts, options,
    true_and]
  refine ⟨isContent_writeRequest writable.url, ⟨⟨⟨?_, ?_⟩, ?_⟩, ?_⟩, ?_⟩
  · intro header member
    exact isContent_pairLine (inline.headers header member).1 (inline.headers header member).2
      (writable.headers header member).2
  · exact isContent_writeBody fun text member => (writable.body text member).2.2
  · intro capture member
    exact isContent_pairLine (inline.captures capture member).1 (inline.captures capture member).2
      (writable.captures capture member).2
  · intro assertion member
    obtain ⟨line, read⟩ := writable.asserts assertion member
    obtain ⟨c, initial, first⟩ := Assertion.head?_of_parse read
    have letter : isBlank c = false ∧ c ∉ fence := by
      rcases Assertion.eq_of_mem_initials initial with rfl | rfl | rfl | rfl <;> decide
    exact isContent_of_trimmed (inline.asserts assertion member) (Assertion.isTrimmed_source read)
      (List.mem_of_mem_head? first) letter.1 letter.2
  · exact isContent_writeOptions _ inline.id writable.id.2

end Runbook.Script

import Runbook.Proofs.Dict
import Runbook.Proofs.Double.Range
import Runbook.Proofs.Script.Written
import Runbook.Proofs.Script.Reading

/-!
The lines of a written block as they are read: each line is taken by the section in which it was written, the lines of a
section add up, and the lines of all sections together hold what the step holds.
-/

namespace Runbook

open Runbook.Text

namespace Script

/-- The forms of the marker lines in lower case. -/
def markerForms : List String := ["[captures]", "[asserts]", "[assertions]", "[options]"]

theorem marker?_eq_none {line : String}
    (apart : ∀ form ∈ markerForms, (trim line.toList).map lowerChar ≠ form.toList) : marker? line = none := by
  have other (form : String) (member : form ∈ markerForms) :
      String.ofList ((trim line.toList).map lowerChar) ≠ form := fun same =>
    apart form member (by rw [← same, String.toList_ofList])
  unfold marker?
  split
  · next same => exact absurd same (other _ (by decide))
  · next same => exact absurd same (other _ (by decide))
  · next same => exact absurd same (other _ (by decide))
  · next same => exact absurd same (other _ (by decide))
  · rfl

section Pairs

variable {name value : String}

/-- A line of a name and a value without the blanks at its end. -/
theorem trim_pairLine (key : IsKey name.toList) :
    trim (pairLine name value).toList = name.toList ++ ':' :: (' ' :: value.toList).rdropWhile isBlank := by
  obtain ⟨first, rest, split⟩ := List.exists_cons_of_ne_nil key.solid.ne_nil
  have dense : isBlank first = false := key.solid.isBlank_eq_false first (by rw [split]; exact List.mem_cons_self)
  have starts : (pairLine name value).toList.dropWhile isBlank = (pairLine name value).toList := by
    rw [toList_pairLine, split, List.cons_append, List.dropWhile_cons, dense]
    rfl
  rw [trim_eq, starts, toList_pairLine, rdropWhile_append_cons (by decide)]

/-- A name and a value are read back from their line. -/
theorem pair?_pairLine (key : IsKey name.toList) (trimmed : IsTrimmed value.toList) :
    pair? (trim (pairLine name value).toList) = some (name, value) := by
  have own : trim name.toList = name.toList := key.solid.isTrimmed
  have inner : trim (' ' :: value.toList) = value.toList := (trim_cons (by decide) _).trans trimmed
  have solid : name.toList.any isBlank = false := List.any_eq_false.mpr fun c member => by
    simp [key.solid.isBlank_eq_false c member]
  unfold pair?
  rw [trim_pairLine key, cut?_append key.colon]
  simp only [own, trim_rdropWhile, inner, solid, List.isEmpty_eq_false_iff.mpr key.solid.ne_nil, Bool.or_false,
    Bool.false_eq_true, if_false, String.ofList_toList]

theorem marker?_pairLine (name value : String) : marker? (pairLine name value) = none := by
  refine marker?_eq_none fun form member same => ?_
  have colon : ':' ∈ trim (pairLine name value).toList := mem_trim (by simp [toList_pairLine]) (by decide)
  have folded : lowerChar ':' ∈ form.toList := same ▸ List.mem_map_of_mem colon
  have absent : ∀ form ∈ markerForms, lowerChar ':' ∉ form.toList := by decide
  exact absent form member folded

theorem isInert_pairLine (key : IsKey name.toList) : isInert (pairLine name value) = false := by
  obtain ⟨first, rest, split⟩ := List.exists_cons_of_ne_nil key.solid.ne_nil
  have other : first ≠ '#' := fun same => key.comment (by rw [split, same]; rfl)
  unfold isInert
  rw [trim_pairLine key, split]
  simpa using other

end Pairs

theorem isEmpty_trimmed {line : String} (said : isInert line = false) : (trimmed line).isEmpty = false := by
  have filled : trim line.toList ≠ [] := fun none => by simp [isInert, none] at said
  simpa [← String.toList_inj] using filled

/-- The characters that the name of a capture may have. -/
theorem solid_of_identifier {c : Char} (allowed : (isLetter c || isDigit c || c == '_') = true) :
    isBlank c = false ∧ c ≠ ':' ∧ c ≠ '#' := by
  refine ⟨?_, ?_, ?_⟩
  · have ranges : (97 ≤ c.toNat ∧ c.toNat ≤ 122 ∨ 65 ≤ c.toNat ∧ c.toNat ≤ 90) ∨ 48 ≤ c.toNat ∧ c.toNat ≤ 57 ∨
        c.toNat = 95 := by
      simp only [Bool.or_eq_true, isLetter_iff, isDigit_iff, beq_iff_eq, ← Char.toNat_inj] at allowed
      simpa [or_assoc] using allowed
    simp only [isBlank, Bool.or_eq_false_iff, Bool.and_eq_false_iff, decide_eq_false_iff_not, beq_eq_false_iff_ne]
    omega
  · rintro rfl
    exact absurd allowed (by decide)
  · rintro rfl
    exact absurd allowed (by decide)

/-- A name under which a value can be captured can stand in front of a colon. -/
theorem isKey_of_check {name path : String} (checked : Capture.check name path = .ok ()) : IsKey name.toList := by
  have identifier : Capture.isIdentifier name = true := by
    unfold Capture.check at checked
    split at checked
    · cases checked
    · next known => simpa using known
  unfold Capture.isIdentifier at identifier
  split at identifier
  · next first rest split =>
    rw [Bool.and_eq_true, List.all_eq_true] at identifier
    have allowed : ∀ c ∈ name.toList, (isLetter c || isDigit c || c == '_') = true := by
      rw [split, List.forall_mem_cons]
      refine ⟨?_, identifier.2⟩
      rcases Bool.or_eq_true_iff.mp identifier.1 with letter | line <;> simp [*]
    refine ⟨⟨by simp [split], fun c member => (solid_of_identifier (allowed c member)).1⟩, ?_, ?_⟩
    · exact fun member => (solid_of_identifier (allowed _ member)).2.1 rfl
    · exact fun starts => (solid_of_identifier (allowed _ (List.mem_of_mem_head? starts))).2.2 rfl
  · cases identifier

/-- The line of an assertion is neither a marker nor a comment. -/
theorem marker?_source {assertion : Assertion} {line : String} (written : Assertion.parse line = .ok assertion) :
    marker? assertion.source = none ∧ isInert assertion.source = false := by
  obtain ⟨c, initial, first⟩ := Assertion.head?_of_parse written
  have trimmed : trim assertion.source.toList = assertion.source.toList := Assertion.isTrimmed_source written
  obtain ⟨rest, split⟩ := List.head?_eq_some_iff.mp first
  constructor
  · refine marker?_eq_none fun form member same => ?_
    have folded : lowerChar c ∈ form.toList.head? := by
      rw [← same, trimmed, split]
      rfl
    have apart : ∀ form ∈ markerForms, lowerChar c ∉ form.toList.head? := by
      rcases Assertion.eq_of_mem_initials initial with rfl | rfl | rfl | rfl <;> decide
    exact apart form member folded
  · have uncommented : (c == '#') = false := by
      rcases Assertion.eq_of_mem_initials initial with rfl | rfl | rfl | rfl <;> decide
    unfold isInert
    rw [trimmed, split]
    exact uncommented

theorem ofPair?_id {id : String} (filled : id ≠ "") : Setting.ofPair? "id" id = some (.id id) := by
  have lowered : lower "id" = "id" := by decide
  have nonempty : id.isEmpty = false := by simpa using filled
  unfold Setting.ofPair?
  simp only [lowered, nonempty, Bool.false_eq_true, if_false]

/-- A number of milliseconds up to `2 ^ 53` is read back from its written form. -/
theorem map_millis?_written {millis : Nat} (small : millis ≤ Nat.pow 2 53) (setting : Nat → Setting) :
    ((Duration.millis? (toString millis ++ "ms").toList).map fun x => setting (x.floorWithin greatestMillis)) =
      some (setting millis) := by
  have value : (toString millis ++ "ms").toList = (toString millis).toList ++ ['m', 's'] := String.toList_append
  have within : millis ≤ greatestMillis := Nat.le_trans small (by decide)
  rw [value, Duration.millis?_toString, Option.map_some, Double.floorWithin_ofRatio_one small, Nat.min_eq_right within]

theorem ofPair?_timeout {millis : Nat} (small : millis ≤ Nat.pow 2 53) :
    Setting.ofPair? "timeout" (toString millis ++ "ms") = some (.timeout millis) := by
  have lowered : lower "timeout" = "timeout" := by decide
  unfold Setting.ofPair?
  rw [lowered]
  exact map_millis?_written small .timeout

theorem ofPair?_retryWait {millis : Nat} (small : millis ≤ Nat.pow 2 53) :
    Setting.ofPair? "retry_wait" (toString millis ++ "ms") = some (.retryWait millis) := by
  have lowered : lower "retry_wait" = "retry_wait" := by decide
  unfold Setting.ofPair?
  rw [lowered]
  exact map_millis?_written small .retryWait

theorem ofPair?_retry {count : Nat} (small : count < Nat.pow 2 32) :
    Setting.ofPair? "retry" (toString count) = some (.retry count) := by
  have lowered : lower "retry" = "retry" := by decide
  unfold Setting.ofPair?
  rw [lowered, naturalBelow?_toString small]
  rfl

/-- The keys of the options section can stand in front of a colon. -/
theorem isKey_of_setting : ∀ name ∈ ["id", "timeout", "retry", "retry_wait"], IsKey name.toList := by
  decide

namespace Draft

variable (draft : Draft) {name value : String}

theorem next_header (place : draft.place = .headers) (key : IsKey name.toList) (trimmed : IsTrimmed value.toList) :
    draft.next (pairLine name value) = .ok { draft with headers := draft.headers.insert name value } := by
  unfold Draft.next Draft.addLine
  simp only [marker?_pairLine, place, isEmpty_trimmed (isInert_pairLine key), isInert_pairLine key, toList_trimmed,
    pair?_pairLine key trimmed, Bool.false_eq_true, if_false]

theorem next_capture (place : draft.place = .captures) {capture : Capture}
    (checked : Capture.check capture.name capture.path = .ok ()) (trimmed : IsTrimmed capture.path.toList) :
    draft.next (pairLine capture.name capture.path) = .ok { draft with captures := draft.captures ++ [capture] } := by
  have key := isKey_of_check checked
  have read : readCapture (Text.trimmed (pairLine capture.name capture.path)) = .ok capture := by
    unfold readCapture
    rw [toList_trimmed, pair?_pairLine key trimmed]
    simp only [checked]
    rfl
  unfold Draft.next Draft.addLine
  simp only [marker?_pairLine, place, isInert_pairLine key, read, Bool.false_eq_true, if_false]
  rfl

theorem next_setting (place : draft.place = .options) (key : IsKey name.toList) (trimmed : IsTrimmed value.toList)
    {setting : Setting} (made : Setting.ofPair? name value = some setting) :
    draft.next (pairLine name value) = .ok (draft.set setting) := by
  have read : readSetting (Text.trimmed (pairLine name value)) = .ok setting :=
    readSetting_eq_ok_iff.mpr ⟨(name, value), by rw [toList_trimmed, pair?_pairLine key trimmed], made⟩
  unfold Draft.next Draft.addLine
  simp only [marker?_pairLine, place, isInert_pairLine key, read, Bool.false_eq_true, if_false]
  rfl

theorem next_assertion (place : draft.place = .asserts) {assertion : Assertion} {line : String}
    (written : Assertion.parse line = .ok assertion) :
    draft.next assertion.source = .ok { draft with asserts := draft.asserts ++ [assertion] } := by
  obtain ⟨unmarked, said⟩ := marker?_source written
  have read : Assertion.parse (trimmed assertion.source) = .ok assertion := by
    rw [Assertion.parse_trimmed, Assertion.parse_source written]
  unfold Draft.next Draft.addLine
  simp only [unmarked, place, said, read, Bool.false_eq_true, if_false]

/-- A line of the body is kept as it is. -/
theorem next_body (place : draft.place = .body) {line : String} (unmarked : marker? line = none) :
    draft.next line = .ok { draft with bodyLines := draft.bodyLines ++ [line] } := by
  unfold Draft.next Draft.addLine
  simp only [unmarked, place]

/-- The empty line behind the headers opens the body. -/
theorem next_empty (place : draft.place = .headers) : draft.next "" = .ok { draft with place := .body } := by
  have unmarked : marker? "" = none := by decide
  have empty : (Text.trimmed "").isEmpty = true := by decide
  unfold Draft.next Draft.addLine
  simp only [unmarked, place, empty, if_true]

theorem next_marker {line : String} {place : Section} (marked : marker? line = some place) :
    draft.next line = .ok { draft with place } := by
  unfold Draft.next
  simp only [marked]

/-- The lines of a section add up: where each of them adds one element to a draft, they add all of theirs. -/
theorem foldlM_next_map {α : Type} {elements : List α} (line : α → String) (put : List α → Draft) (before : List α)
    (one : ∀ element ∈ elements, ∀ old, (put old).next (line element) = .ok (put (old ++ [element]))) :
    (elements.map line).foldlM Draft.next (put before) = .ok (put (before ++ elements)) := by
  induction elements generalizing before with
  | nil =>
    rw [List.append_nil]
    rfl
  | cons element rest ih =>
    rw [List.map_cons, List.foldlM_cons, bind_eq_ok_iff]
    refine ⟨_, one element List.mem_cons_self before, ?_⟩
    rw [ih _ fun other member => one other (List.mem_cons_of_mem _ member), List.append_assoc, List.singleton_append]

theorem foldlM_headers (place : draft.place = .headers) {headers : Dict String} (sorted : headers.Sorted)
    (held : ∀ header ∈ headers, IsKey header.1.toList ∧ IsTrimmed header.2.toList) (fresh : draft.headers = []) :
    (headers.map fun header => pairLine header.1 header.2).foldlM Draft.next draft = .ok { draft with headers } := by
  have opening : draft = { draft with headers := Dict.ofPairs [] } := by
    obtain ⟨_, _, _, _, _, _, _⟩ := draft
    cases fresh
    rfl
  have all := foldlM_next_map (fun header => pairLine header.1 header.2)
    (fun pairs => { draft with headers := Dict.ofPairs pairs }) [] fun header member old => by
      rw [next_header { draft with headers := Dict.ofPairs old } place (held header member).1 (held header member).2]
      simp [Dict.ofPairs]
  rw [← opening, List.nil_append, Dict.ofPairs_eq_self sorted] at all
  exact all

theorem foldlM_body (place : draft.place = .body) {lines : List String}
    (unmarked : ∀ line ∈ lines, marker? line = none) :
    lines.foldlM Draft.next draft = .ok { draft with bodyLines := draft.bodyLines ++ lines } := by
  have all := foldlM_next_map (fun line => line) (fun bodyLines => { draft with bodyLines }) draft.bodyLines
    fun line member old => next_body { draft with bodyLines := old } place (unmarked line member)
  rwa [List.map_id'] at all

theorem foldlM_captures (place : draft.place = .captures) {captures : List Capture}
    (held : ∀ capture ∈ captures, Capture.check capture.name capture.path = .ok () ∧ IsTrimmed capture.path.toList) :
    (captures.map fun capture => pairLine capture.name capture.path).foldlM Draft.next draft =
      .ok { draft with captures := draft.captures ++ captures } :=
  foldlM_next_map _ (fun captures => { draft with captures }) draft.captures fun capture member old =>
    next_capture { draft with captures := old } place (held capture member).1 (held capture member).2

theorem foldlM_asserts (place : draft.place = .asserts) {asserts : List Assertion}
    (held : ∀ assertion ∈ asserts, ∃ line, Assertion.parse line = .ok assertion) :
    (asserts.map Assertion.source).foldlM Draft.next draft =
      .ok { draft with asserts := draft.asserts ++ asserts } := by
  refine foldlM_next_map _ (fun asserts => { draft with asserts }) draft.asserts fun assertion member old => ?_
  obtain ⟨line, written⟩ := held assertion member
  exact next_assertion { draft with asserts := old } place written

theorem foldlM_next_cons {between : Draft} {line : String} (read : draft.next line = .ok between) (rest : List String) :
    (line :: rest).foldlM Draft.next draft = rest.foldlM Draft.next between := by
  rw [List.foldlM_cons, read]
  rfl

theorem foldlM_next_append {between : Draft} {lines : List String} (read : lines.foldlM Draft.next draft = .ok between)
    (rest : List String) : (lines ++ rest).foldlM Draft.next draft = rest.foldlM Draft.next between := by
  rw [List.foldlM_append, read]
  rfl

/-- The timeout of a step has a line of its own only where there is one. -/
theorem foldlM_timeout (place : draft.place = .options) {timeout : Option Nat}
    (small : ∀ millis ∈ timeout, millis ≤ Nat.pow 2 53) (fresh : draft.options.timeout = none) :
    (timeout.map fun millis => pairLine "timeout" (toString millis ++ "ms")).toList.foldlM Draft.next draft =
      .ok { draft with options := { draft.options with timeout } } := by
  cases timeout with
  | none =>
    have still : { draft.options with timeout := none } = draft.options := by rw [← fresh]
    rw [still]
    rfl
  | some millis =>
    have key := isKey_of_setting "timeout" (by decide)
    rw [Option.map_some, Option.toList_some, foldlM_next_cons _
      (next_setting _ place key (isSolid_millis millis).isTrimmed (ofPair?_timeout (small millis rfl)))]
    rfl

theorem foldlM_options (place : draft.place = .options) {id : String} (filled : id ≠ "") (trimmed : IsTrimmed id.toList)
    {options : StepOptions} (timeout : ∀ millis ∈ options.timeout, millis ≤ Nat.pow 2 53)
    (retry : options.retry < Nat.pow 2 32) (retryWait : options.retryWait ≤ Nat.pow 2 53) (fresh : draft.options = {}) :
    (writeOptions id options).foldlM Draft.next draft = .ok { draft with id := some id, options } := by
  have key {name : String} := isKey_of_setting name
  have count := (isSolid_toString options.retry).isTrimmed
  have wait := (isSolid_millis options.retryWait).isTrimmed
  have unlimited : draft.options.timeout = none := by rw [fresh]
  unfold writeOptions
  rw [foldlM_next_cons _ (next_setting _ place (key (by decide)) trimmed (ofPair?_id filled)),
    foldlM_next_append _ (foldlM_timeout (draft.set (.id id)) place timeout unlimited),
    foldlM_next_cons _ (next_setting _ ?_ (key (by decide)) count (ofPair?_retry retry)),
    foldlM_next_cons _ (next_setting _ ?_ (key (by decide)) wait (ofPair?_retryWait retryWait))]
  · rfl
  · exact place
  · exact place

end Draft

/-- What has been read of a block when all lines that were written of a step have been read. -/
def Draft.ofStep (step : Step) : Draft where
  place := .options
  headers := step.headers
  bodyLines := writeBody step.body ++ [""]
  captures := step.captures
  asserts := step.asserts
  options := step.options
  id := some step.id

theorem Writable.marker?_body {step : Step} (writable : Writable step) :
    ∀ line ∈ writeBody step.body ++ [""], marker? line = none := by
  rw [List.forall_mem_append, List.forall_mem_singleton]
  refine ⟨?_, by decide⟩
  cases body : step.body with
  | none => simp [writeBody]
  | some text => exact List.forall_mem_map.mpr fun line member => ((writable.body text body).2.2 line member).unmarked

/-- The lines of a written block behind its request line are read as what they were written of. -/
theorem Draft.foldlM_writeSections {step : Step} (writable : Writable step) :
    (writeSections step).foldlM Draft.next {} = .ok (.ofStep step) := by
  have split : writeSections step = step.headers.map (fun header => pairLine header.1 header.2) ++
      "" :: ((writeBody step.body ++ [""]) ++
        "[Captures]" :: (step.captures.map (fun capture => pairLine capture.name capture.path) ++
          "[Asserts]" :: (step.asserts.map Assertion.source ++ "[Options]" :: writeOptions step.id step.options))) := by
    simp [writeSections]
  have captures : marker? "[Captures]" = some .captures := by decide
  have asserts : marker? "[Asserts]" = some .asserts := by decide
  have options : marker? "[Options]" = some .options := by decide
  rw [split, foldlM_next_append _ (foldlM_headers _ ?_ writable.sorted writable.headers ?_),
    foldlM_next_cons _ (next_empty _ ?_), foldlM_next_append _ (foldlM_body _ ?_ writable.marker?_body),
    foldlM_next_cons _ (next_marker _ captures), foldlM_next_append _ (foldlM_captures _ ?_ writable.captures),
    foldlM_next_cons _ (next_marker _ asserts), foldlM_next_append _ (foldlM_asserts _ ?_ writable.asserts),
    foldlM_next_cons _ (next_marker _ options),
    foldlM_options _ ?_ writable.id.1 writable.id.2 writable.timeout writable.retry writable.retryWait ?_]
  all_goals rfl

end Script
end Runbook

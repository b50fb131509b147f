import Runbook.Proofs.Script.Scanned
import Runbook.Proofs.Script.Sections

/-!
The round trip of scripts: steps that are written as a script are read back from it, all of them and each as it was.
-/

namespace Runbook.Script

open Runbook.Text

/-- A body is read back from its lines and the empty line behind them. -/
theorem body?_written {draft : Draft} {body : Option String}
    (held : ∀ text ∈ body, text ≠ "" ∧ IsTrimmed text.toList)
    (lines : draft.bodyLines = writeBody body ++ [""]) : draft.body? = body := by
  unfold Draft.body?
  rw [lines]
  cases body with
  | none => decide
  | some text =>
    obtain ⟨filled, own⟩ := held text rfl
    have joined : ("\n".intercalate (writeBody (some text) ++ [""])).toList = [] ++ text.toList ++ ['\n'] := by
      rw [String.toList_intercalate, List.map_append]
      have pieces : (writeBody (some text)).map String.toList = splitAt '\n' text.toList := by
        simp [writeBody, Function.comp_def]
      rw [pieces]
      exact intercalate_splitAt '\n' text.toList
    have feed : isBlank '\n' = true := by decide
    have padded : trim ([] ++ text.toList ++ ['\n']) = trim text.toList := trim_pad (by simp) (by simp [feed])
    have whole : trimmed ("\n".intercalate (writeBody (some text) ++ [""])) = text := by
      rw [trimmed, joined, padded, show trim text.toList = text.toList from own, String.ofList_toList]
    simp only [whole]
    simpa using filled

theorem isInert_writeRequest {step : Step} (solid : IsSolid step.url.toList) : isInert (writeRequest step) = false := by
  obtain ⟨c, rest, name, -, uncommented, -⟩ := exists_initial step.method
  have whole : trim (writeRequest step).toList = (writeRequest step).toList := isTrimmed_writeRequest solid
  unfold isInert
  rw [whole, toList_writeRequest, name]
  exact uncommented

/-- The method and URL of a step are read back from its request line. -/
theorem readRequestLine_writeRequest {step : Step} (solid : IsSolid step.url.toList) :
    readRequestLine (writeRequest step) = .ok (step.method, step.url) := by
  have method : Method.read? step.method.name = some step.method := by
    cases step.method <;> decide
  unfold readRequestLine
  rw [toList_writeRequest, words_append (isSolid_name step.method) solid (by decide)]
  simp only [String.ofList_toList, method]
  rfl

/-- The block of a written step has that step. -/
theorem Block.Holds.step {block : Block} {step : Step} (holds : block.Holds step) (writable : Writable step) :
    block.step = .ok step := by
  obtain ⟨request, rest, lines, requestText, restTexts⟩ := List.map_eq_cons_iff.mp holds.lines
  have said : isInert request.text = false := requestText ▸ isInert_writeRequest writable.url
  have first : block.lines.find? (!isInert ·.text) = some request := by
    rw [lines, List.find?_cons_of_pos (by simp [said])]
  have read : readRequestLine request.text = .ok (step.method, step.url) :=
    requestText ▸ readRequestLine_writeRequest writable.url
  have behind : block.behind request = writeSections step := by
    rw [Block.behind, lines, List.dropWhile_cons_of_neg (by simp), List.drop_one, List.tail_cons, restTexts]
  have body : (Draft.ofStep step).body? = step.body :=
    body?_written (fun text member => ⟨(writable.body text member).1, (writable.body text member).2.1⟩) rfl
  have assembled : block.assemble step.method step.url (Draft.ofStep step) = step := by
    rw [Block.assemble, body, holds.number, holds.label, ← writable.position]
    rfl
  exact Block.step_eq_ok_iff.mpr
    ⟨request, _, _, _, first, read, behind ▸ Draft.foldlM_writeSections writable, assembled⟩

/-- Written as a script, steps that can be written are read back as they were, under the name of the script: no part of
them is lost, and the name given as a hint does not matter. -/
theorem parse_write {name : String} (title : IsTitle name) {steps : List Step} (some : steps ≠ [])
    (writable : ∀ step ∈ steps, Writable step)
    (increasing : steps.Pairwise fun first second => first.sortOrder < second.sortOrder)
    (distinct : (steps.map Step.id).Nodup) (hint : Option String) :
    parse (write name steps) hint = .ok { id := Slug.ofName name, name, flow := .script steps } := by
  obtain ⟨found, scanned, holds⟩ := blocks_write title writable
  have filled : found ≠ [] := by
    rintro rfl
    cases holds
    exact some rfl
  have both : List.Forall₂ (fun step block => Writable step ∧ block.Holds step) steps found :=
    (List.forall₂_and_left _ _).mpr ⟨writable, List.Forall₂.flip holds⟩
  have read : List.Forall₂ (fun block step => block.step = .ok step) found steps :=
    List.Forall₂.flip (both.imp fun step block known => known.2.step known.1)
  have sorted : sortSteps steps = steps :=
    List.mergeSort_of_pairwise (increasing.imp fun less => decide_eq_true (Nat.le_of_lt less))
  refine parse_eq_ok_iff.mpr ⟨found, steps, scanned, filled, read, sorted.symm ▸ distinct, ?_⟩
  rw [title?_write title writable, sorted]
  rfl

/-- A step with a part of each kind. -/
def logIn : Step where
  id := "log in"
  name := "Step 1: log in"
  method := .post
  url := "/session"
  headers := [("Accept", "text/plain"), ("X-Trace", "")]
  body := some "user=ada\n\npass=x"
  captures := [⟨"token", "$.token"⟩]
  asserts := [⟨.body "token", .present, none, "body.token exists"⟩]
  sortOrder := 1
  options := { timeout := some 5000, retry := 2, retryWait := 100 }

/-- A step with no more than its request. -/
def browse : Step where
  id := "browse"
  name := "Step 7: browse"
  method := .get
  url := "/items"
  sortOrder := 7

theorem writable_logIn : Writable logIn where
  id := by decide
  name := ⟨"log in", by decide, by decide⟩
  url := by decide
  headers := by decide
  sorted := by
    unfold Dict.Sorted
    decide
  body := by decide
  captures := by decide
  asserts := by
    rintro assertion (_ | ⟨_, ⟨⟩⟩)
    exact ⟨"body.token exists", by rfl⟩
  timeout := by decide
  retry := by decide
  retryWait := by decide
  position := rfl
  sortOrder := by decide
  inline := ⟨by decide, by decide, by decide, by decide⟩

theorem writable_browse : Writable browse where
  id := by decide
  name := ⟨"browse", by decide, by decide⟩
  url := by decide
  headers := by decide
  sorted := by
    unfold Dict.Sorted
    decide
  body := by decide
  captures := by decide
  asserts := by rintro assertion ⟨⟩
  timeout := by decide
  retry := by decide
  retryWait := by decide
  position := rfl
  sortOrder := by decide
  inline := ⟨by decide, by decide, by decide, by decide⟩

theorem shop_written :
    parse (write "Shop" [logIn, browse]) (some "other") =
      .ok { id := "shop", name := "Shop", flow := .script [logIn, browse] } :=
  parse_write (by decide) (by decide) (by simp [writable_logIn, writable_browse]) (by decide) (by decide) _

end Runbook.Script

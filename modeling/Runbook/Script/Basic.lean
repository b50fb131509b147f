import Runbook.Scenario.Slug
import Runbook.Script.Request

/-!
The scenario of a script: its steps by number, and its name from the title of the document.
-/

namespace Runbook.Script

open Runbook.Text

/-- The title of a document: the first heading of the first level outside fences. Here every line that starts with
backticks opens or closes a fence. -/
def title? (document : String) : Option String :=
  go false (lines document.toList)
where
  /-- The title among the lines left, inside or outside a fence. -/
  go : Bool → List (List Char) → Option String
    | _, [] => none
    | fenced, line :: rest =>
      let text := trim line
      if (afterFront? fence text).isSome then go (!fenced) rest
      else if fenced then go fenced rest
      else
        match afterFront? ['#', ' '] text with
        | some title => if (trim title).isEmpty then go fenced rest else some (String.ofList (trim title))
        | none => go fenced rest

/-- The first step whose id an earlier one has. -/
def firstRepeated? (seen : List String) : List Step → Option Step
  | [] => none
  | step :: rest => if seen.contains step.id then some step else firstRepeated? (step.id :: seen) rest

/-- The scenario of a script. Without a title it has the name given as a hint. -/
def parse (document : String) (hint : Option String) : Except ScenarioError Scenario := do
  let found ← blocks document
  if found.isEmpty then throw (.general .noSteps)
  let declared ← found.mapM Block.step
  let steps := declared.mergeSort fun first second => first.sortOrder ≤ second.sortOrder
  match firstRepeated? [] steps with
  | some step => throw (.inStep step.name (.duplicateStepId step.id))
  | none =>
    let name := (title? document).getD (hint.getD "scenario")
    return { id := Slug.ofName name, name, flow := .script steps }

end Runbook.Script

/-!
What can be wrong with a scenario, and how it is said.
-/

namespace Runbook

/-- A fault of a scenario. -/
inductive Defect where
  | missingRequestLine
  | invalidMethod (text : String)
  | emptyUrl
  | invalidHeader (line : String)
  | invalidCapture (line : String)
  | invalidCaptureName (name : String)
  | invalidAssertion (line : String)
  | invalidOption (line : String)
  | unterminatedBlock
  | noSteps
  | duplicateStepId (id : String)
  | unknownStep (id : String)
  | cycle (ids : List String)
  | malformed (text : String)
deriving DecidableEq, Repr

/-- The wording of a defect. -/
def Defect.message : Defect → String
  | missingRequestLine => "missing request line \x60METHOD <url>\x60"
  | invalidMethod text => "unsupported HTTP method '" ++ text ++ "'"
  | emptyUrl => "request URL is empty"
  | invalidHeader line => "malformed header line '" ++ line ++ "'"
  | invalidCapture line => "malformed capture line '" ++ line ++ "'"
  | invalidCaptureName name => "capture name '" ++ name ++ "' is not a valid identifier"
  | invalidAssertion line => "malformed assertion '" ++ line ++ "'"
  | invalidOption line => "unknown or malformed option '" ++ line ++ "'"
  | unterminatedBlock => "unterminated request block"
  | noSteps => "scenario contains no steps"
  | duplicateStepId id => "duplicate step id '" ++ id ++ "'"
  | unknownStep id => "edge references unknown step '" ++ id ++ "'"
  | cycle ids => "dependency cycle detected involving steps: " ++ ", ".intercalate ids
  | malformed text => text

/-- A defect with the step and the line it was found at, where they are known. -/
structure ScenarioError where
  step : Option String := none
  line : Option Nat := none
  defect : Defect
deriving DecidableEq, Repr

namespace ScenarioError

/-- A defect of the scenario as a whole. -/
def general (defect : Defect) : ScenarioError := { defect }

/-- A defect of a step. -/
def inStep (step : String) (defect : Defect) : ScenarioError := { step := some step, defect }

/-- A defect at a line of a step. -/
def atLine (step : String) (line : Nat) (defect : Defect) : ScenarioError := ⟨some step, some line, defect⟩

/-- The wording of an error: the place, then the defect. -/
def message (error : ScenarioError) : String :=
  let place := match error.step, error.line with
    | some step, some line => "step '" ++ step ++ "' (line " ++ toString line ++ "): "
    | some step, none => "step '" ++ step ++ "': "
    | none, some line => "line " ++ toString line ++ ": "
    | none, none => ""
  place ++ error.defect.message

end ScenarioError
end Runbook

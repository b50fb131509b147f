import Runbook.Text.Pieces

/-!
Failures that are told to a person: what could not be done, and why, from the outermost cause to the innermost.
-/

namespace Runbook

open Runbook.Text

/-- A failure with its causes, outermost first. -/
structure Failure where
  message : String
  causes : List String := []
deriving DecidableEq, Repr

namespace Failure

/-- A failure of something larger that another failure is the cause of. -/
def within (message : String) (cause : Failure) : Failure := ⟨message, cause.message :: cause.causes⟩

/-- The failure and its causes on one line. -/
def line (failure : Failure) : String := ": ".intercalate (failure.message :: failure.causes)

/-- A text whose further lines are indented. -/
def indented (indentation : String) (text : String) : String :=
  String.ofList (joinWith ('\n' :: indentation.toList) (splitAt '\n' text.toList))

/-- The failure in full: its causes stand below, with numbers if there are several. -/
def text (failure : Failure) : String :=
  let causes := match failure.causes with
    | [] => ""
    | [cause] => "\n\nCaused by:\n    " ++ indented "    " cause
    | causes =>
      "\n\nCaused by:" ++ String.join (causes.mapIdx fun index cause =>
        let number := toString index
        "\n" ++ "".pushn ' ' (5 - number.length) ++ number ++ ": " ++ indented "       " cause)
  failure.message ++ causes

end Failure
end Runbook

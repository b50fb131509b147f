import Runbook.Files.Basic
import Runbook.Run.Interaction
import Runbook.Template.Builtin

/-!
The services of the machine that a command runs on, and interactions carried out on it.
-/

namespace Runbook

/-- The services of a machine in a monad. -/
class Host (m : Type → Type) extends Files m where
  workingDirectory : m String
  /-- A variable of the surroundings of the command. -/
  setting? : String → m (Option String)
  now : m Time.Instant
  /-- Draws for generated values, with the time. No two are the same. -/
  draws : m Template.Draws
  /-- The output goes to a terminal. -/
  isTerminal : m Bool
  /-- A text is added to the output. -/
  print : String → m Unit
  /-- A text is added to what is told of errors. -/
  complain : String → m Unit
  /-- What comes back for a request. -/
  send : Request → m Answer
  /-- Some milliseconds pass; the result tells whether the command has been canceled. -/
  pause : Nat → m Bool

/-- Computations side by side in a monad. -/
class Crew (m : Type → Type) where
  /-- The results of computations carried out side by side, at most so many at a time, in the order in which they end.
  They take turns at requests and pauses only. One that breaks down has no result. -/
  together {α : Type} : Nat → List (m α) → m (List α)

namespace Interaction

variable {m : Type → Type} [Monad m] [Host m] {α : Type}

/-- An interaction carried out on a machine, with an observer of its notes. -/
def perform (observe : Note → m Unit) : Interaction α → m α
  | done result => pure result
  | call request resume => do perform observe (resume (← Host.send request))
  | wait millis resume => do perform observe (resume (← Host.pause millis))
  | note content rest => do
    observe content
    perform observe rest

end Interaction
end Runbook

import Runbook.Proofs.Run.Runs
import Runbook.Proofs.Run.Sending
import Runbook.Proofs.Run.Telling
import Runbook.Proofs.Run.Terminal
import Runbook.Script.Request

/-!
Warnings. Before a request is sent again, a warning tells the number of the attempt that failed, the number of all
attempts, and the wait, each in a word of its own. The numbers of attempts and the waits always fit. The number of all
attempts is one more than the retries, so it does not fit where the retries are as many as a word can count: there the
first warning breaks the run down, and nothing else does.
-/

namespace Runbook

/-- The numbers of attempts fit words of 32 bits, and the wait fits a word of 64 bits. -/
def Note.fits : Note → Bool
  | .retry attempt total wait _ => attempt < Nat.pow 2 32 && total < Nat.pow 2 32 && wait < Nat.pow 2 64
  | .progress _ | .exchange _ _ _ => true

namespace Interaction

variable {α β σ : Type} {allowed : Note → Prop} {executor : Executor} {observe : σ → Note → σ} {world : World σ}

/-- Every note that an interaction may leave is of an allowed kind. -/
inductive Leaves (allowed : Note → Prop) : Interaction α → Prop
  | done (result : α) : Leaves allowed (.done result)
  | call {request : Request} {resume : Answer → Interaction α} (further : ∀ answer, Leaves allowed (resume answer)) :
      Leaves allowed (.call request resume)
  | wait {millis : Nat} {resume : Bool → Interaction α} (further : ∀ canceled, Leaves allowed (resume canceled)) :
      Leaves allowed (.wait millis resume)
  | note {content : Note} {rest : Interaction α} (here : allowed content) (further : Leaves allowed rest) :
      Leaves allowed (.note content rest)

namespace Leaves

theorem bind {interaction : Interaction α} {next : α → Interaction β} (leaves : interaction.Leaves allowed)
    (further : ∀ value, (next value).Leaves allowed) : (interaction.bind next).Leaves allowed := by
  induction leaves with
  | done result => exact further result
  | call _ ih => exact .call ih
  | wait _ ih => exact .wait ih
  | note here _ ih => exact .note here ih

theorem composes (events : ∀ event, allowed (.progress event)) : Composes (Leaves allowed) where
  done := .done
  progress event _ further := .note (events event) further
  bind first further := first.bind further

theorem of_mem {interaction : Interaction α} {world final : World Unit} {notes : List Note} {result : α}
    (leaves : interaction.Leaves allowed) (runs : Runs executor interaction world notes result final) :
    ∀ content ∈ notes, allowed content := by
  induction runs with
  | done => exact fun _ absent => absurd absent List.not_mem_nil
  | call _ _ ih =>
    cases leaves with
    | call further => exact ih (further _)
  | wait _ ih =>
    cases leaves with
    | wait further => exact ih (further _)
  | note _ ih =>
    cases leaves with
    | note here further => exact List.forall_mem_cons.mpr ⟨here, ih further⟩

end Leaves

end Interaction

namespace Engine

open Interaction

variable {limits : StepOptions} {made : Request}

/-- A warning about an attempt to send the request of a step: it counts the attempts from one, and tells the number of
all attempts and the wait after this one. -/
def IsWarning (limits : StepOptions) : Note → Prop
  | .retry attempt total millis _ =>
    0 < attempt ∧ attempt ≤ limits.retry ∧ total = limits.retry + 1 ∧
      millis = min (limits.retryWait * 2 ^ (attempt - 1)) 30000
  | .progress _ | .exchange _ _ _ => True

/-- The number of an attempt and the wait after it are held by their words; all attempts are, where one more retry could
be counted. -/
theorem IsWarning.fits {content : Note} (warning : IsWarning limits content) (spare : limits.retry + 1 < Nat.pow 2 32) :
    content.fits := by
  cases content with
  | progress event => rfl
  | exchange request outcome elapsed => rfl
  | retry attempt total millis cause =>
    obtain ⟨-, within, rfl, rfl⟩ := warning
    have waits : min (limits.retryWait * 2 ^ (attempt - 1)) 30000 < Nat.pow 2 64 :=
      Nat.lt_of_le_of_lt (min_le_right _ _) (by decide)
    simp only [Note.fits, Bool.and_eq_true, decide_eq_true_eq]
    exact ⟨⟨by omega, spare⟩, waits⟩

/-- A scenario of one step with a number of retries. -/
def lasting (retries : Nat) : Scenario :=
  { id := "lasting", name := "lasting"
    flow := .graph [{ Plan.plainStep "first" 0 with options := { retry := retries } }] [] }

end Engine
end Runbook

import Mathlib.Algebra.GroupWithZero.Nat
import Runbook.Delivery.Basic
import Runbook.Proofs.Run.Runs
import Runbook.Proofs.Text.Blank

/-!
Runs that are delivered to a console. Each of them is posted until an answer is final or no further attempt is left, with
waits that double, and its last answer is the verdict. The runs share the answers of the console and nothing else: each
is delivered as it would be alone, by the answers that those before it have left.
-/

namespace Runbook.Delivery

open Interaction Runbook.Text

/-- A console that gives its answers one after another, whatever is sent to it. -/
def answering (answers : Nat → Outcome) : Executor := fun earlier _ => some { outcome := answers earlier.length }

/-- An answer behind which a run is posted again: a failure of the server or of the network. -/
def Retried : Outcome → Prop
  | .ok reply => 500 ≤ reply.status ∧ reply.status < 600
  | .error _ => True

instance : DecidablePred Retried
  | .ok reply => inferInstanceAs (Decidable (500 ≤ reply.status ∧ reply.status < 600))
  | .error _ => inferInstanceAs (Decidable True)

/-- What the last answer makes of a run. -/
def judgement (run : Run) : Outcome → Except Failure Receipt
  | .ok reply => if isSuccess reply.status then receipt reply.body else .error (rejected run reply)
  | .error error => .error (unreachable run error)

/-- The waits before the second, the third and the fourth attempt. -/
def pauses (console : Console) : List Nat := [console.retryBase, 2 * console.retryBase, 4 * console.retryBase]

/-- A request that is sent once at a time and so often again, behind the first of some waits each time. -/
def postings (waits : List Nat) (request : Request) (start further : Nat) : List (Nat × Request) :=
  (List.range (further + 1)).map fun attempt => (start + (waits.take attempt).sum, request)

/-- A run that is delivered or not: the time of its first POST, the number of further ones, and the result. -/
structure Submission where
  run : Run
  start : Nat
  further : Nat
  result : Except Failure Receipt

/-- The POSTs of a run, each with its time. -/
def Submission.posts (console : Console) (submission : Submission) : List (Nat × Request) :=
  postings (pauses console) (request console submission.run) submission.start submission.further

variable {console : Console} {run : Run} {answers : Nat → Outcome} {outcome : Outcome} {left : Nat}

/-! One answer -/

/-- An attempt behind which another one is left ends the delivery unless the answer is a failure of the server or of the
network. -/
theorem attempts_succ : attempts console run (left + 1) = .call (request console run) fun answer =>
    if Retried answer.outcome then
      .wait (console.retryBase * 2 ^ (retries - (left + 1))) fun _ => attempts console run left
    else .done (judgement run answer.outcome) := by
  rw [attempts]
  congr
  funext answer
  cases answer.outcome with
  | error error => exact (if_pos trivial).symm
  | ok reply =>
    by_cases success : isSuccess reply.status = true
    · have final : ¬Retried (.ok reply) := by
        simp only [isSuccess, Bool.and_eq_true, decide_eq_true_iff] at success
        rintro ⟨least, -⟩
        omega
      simp [success, final, judgement]
    · have same : isServerError reply.status = true ↔ Retried (.ok reply) := by simp [isServerError, Retried]
      by_cases server : Retried (.ok reply)
      · simp [success, server, same.mpr server]
      · simp [success, server, mt same.mp server, judgement]

/-! One run -/

theorem drop_pauses (console : Console) (room : left < retries) :
    (pauses console).drop (retries - (left + 1)) =
      console.retryBase * 2 ^ (retries - (left + 1)) :: (pauses console).drop (retries - left) := by
  match left, room with
  | 0, _ | 1, _ | 2, _ => simp [retries, pauses, Nat.mul_comm]

/-- A request that is sent again is sent once, and again behind the first wait. -/
theorem postings_again (pause : Nat) (waits : List Nat) (request : Request) (start further : Nat) :
    postings (pause :: waits) request start (further + 1) =
      (start, request) :: postings waits request (start + pause) further := by
  rw [postings, postings, List.range_succ_eq_map, List.map_cons, List.map_map]
  simp [Function.comp_def, Nat.add_assoc]

/-- The answers that a console has left. -/
def leftover (answers : Nat → Outcome) (calls : List (Nat × Request)) (attempt : Nat) : Outcome :=
  answers (calls.length + attempt)

/-- One more POST uses up one answer. -/
theorem leftover_concat (answers : Nat → Outcome) (calls : List (Nat × Request)) (call : Nat × Request) :
    leftover answers (calls ++ [call]) = fun attempt => leftover answers calls (attempt + 1) := by
  funext attempt
  rw [leftover, leftover, List.length_append, List.length_singleton, Nat.add_right_comm, Nat.add_assoc]

theorem answering_requests (world : World Unit) (made : Request) :
    answering answers world.requests made = some { outcome := leftover answers world.calls 0 } := by
  rw [answering, World.requests, List.length_map, leftover, Nat.add_zero]

/-- So many further POSTs follow the first one, of those that may: each answer but the last calls for another POST, and
the last one does not, or no POST is left. -/
structure Spends (answers : Nat → Outcome) (limit further : Nat) : Prop where
  within : further ≤ limit
  retried : ∀ attempt < further, Retried (answers attempt)
  ended : further = limit ∨ ¬Retried (answers further)

namespace Spends

variable {limit further other : Nat}

/-- No POST follows the first one if none is left or its answer does not call for another one. -/
theorem once (ended : 0 = limit ∨ ¬Retried (answers 0)) : Spends answers limit 0 :=
  ⟨Nat.zero_le limit, fun _ below => absurd below (Nat.not_lt_zero _), ended⟩

/-- The first POST goes before the others. -/
theorem again (first : Retried (answers 0)) (rest : Spends (fun attempt => answers (attempt + 1)) limit further) :
    Spends answers (limit + 1) (further + 1) where
  within := Nat.succ_le_succ rest.within
  retried attempt below := by
    cases attempt with
    | zero => exact first
    | succ attempt => exact rest.retried attempt (Nat.lt_of_succ_lt_succ below)
  ended := rest.ended.imp_left (congrArg Nat.succ)

theorem le (spends : Spends answers limit further) (others : Spends answers limit other) : further ≤ other := by
  by_contra beyond
  rcases others.ended with rfl | final
  · exact beyond spends.within
  · exact final (spends.retried other (Nat.not_le.mp beyond))

/-- The answers determine how many POSTs follow. -/
theorem unique (spends : Spends answers limit further) (others : Spends answers limit other) : further = other :=
  Nat.le_antisymm (spends.le others) (others.le spends)

end Spends

/-- A run is posted behind every answer that calls for it, as long as an attempt is left. -/
theorem exists_runs_attempts (console : Console) (answers : Nat → Outcome) (run : Run) (bound : left ≤ retries)
    (world : World Unit) :
    ∃ further final, Spends (leftover answers world.calls) left further ∧
      Runs (answering answers) (attempts console run left) world []
        (judgement run (leftover answers world.calls further)) final ∧
      final.calls = world.calls ++
        postings ((pauses console).drop (retries - left)) (request console run) world.clock further := by
  induction left generalizing world with
  | zero => exact ⟨0, _, .once (.inl rfl), .call (answering_requests world _) .done, rfl⟩
  | succ left ih =>
    rw [attempts_succ]
    by_cases again : Retried (leftover answers world.calls 0)
    · let pause := console.retryBase * 2 ^ (retries - (left + 1))
      let next := (world.answered (request console run) { outcome := leftover answers world.calls 0 }).waited pause
      obtain ⟨further, final, spends, runs, calls⟩ := ih (Nat.le_of_succ_le bound) next
      have called : next.calls = world.calls ++ [(world.clock, request console run)] := rfl
      have clock : next.clock = world.clock + pause := rfl
      rw [called, leftover_concat] at spends runs
      refine ⟨further + 1, final, spends.again again, .call (answering_requests world _) ?_, ?_⟩
      · rw [if_pos again]
        exact .wait runs
      · rw [calls, called, clock, drop_pauses console bound, postings_again, List.append_assoc, List.singleton_append]
    · refine ⟨0, world.answered (request console run) { outcome := leftover answers world.calls 0 },
        .once (.inr again), .call (answering_requests world _) ?_, rfl⟩
      rw [if_neg again]
      exact .done

/-- A submission is what comes of its run by the given answers. -/
structure Submitted (answers : Nat → Outcome) (submission : Submission) : Prop where
  spends : Spends answers retries submission.further
  result : submission.result = judgement submission.run (answers submission.further)

theorem Submitted.unique {first second : Submission} (submitted : Submitted answers first)
    (again : Submitted answers second) (run : first.run = second.run) (start : first.start = second.start) :
    first = second := by
  have further := submitted.spends.unique again.spends
  have result : first.result = second.result := by rw [submitted.result, again.result, run, further]
  cases first
  cases second
  cases run
  cases start
  cases further
  cases result
  rfl

/-- A run is submitted at once, by the answers that are left. -/
theorem exists_submission (console : Console) (answers : Nat → Outcome) (run : Run) (world : World Unit) :
    ∃ submission final, submission.run = run ∧ submission.start = world.clock ∧
      Submitted (leftover answers world.calls) submission ∧
      Runs (answering answers) (submit console run) world [] submission.result final ∧
      final.calls = world.calls ++ submission.posts console := by
  obtain ⟨further, final, spends, runs, calls⟩ := exists_runs_attempts console answers run (Nat.le_refl retries)
    world
  exact ⟨⟨run, world.clock, further, _⟩, final, rfl, rfl, ⟨spends, rfl⟩, runs, calls⟩

/-- A submission is the one that its run has alone, at the same time, by the answers that it gets. -/
theorem Submitted.alone {submission : Submission} (submitted : Submitted answers submission) (console : Console) :
    ∃ final, Runs (answering answers) (submit console submission.run) { clock := submission.start, seen := () } []
      submission.result final ∧ final.calls = submission.posts console := by
  obtain ⟨other, final, run, start, also, runs, calls⟩ :=
    exists_submission console answers submission.run { clock := submission.start, seen := () }
  have all : leftover answers [] = answers := by
    funext attempt
    exact congrArg answers (Nat.zero_add attempt)
  rw [all] at also
  obtain rfl := also.unique submitted run start
  exact ⟨final, runs, calls⟩

/-! Several runs -/

/-- Two answers call for another POST and the third one takes the run; each of the other runs gets one answer. -/
example :
    let run : Run := ⟨"r", "shop", "Shop", "test", .passed, none, none, [], false⟩
    let answers : Nat → Outcome
      | 0 => .ok { status := 503 }
      | 1 => .error { cause := "reset" }
      | 2 => .ok { status := 201, body := " " }
      | 3 => .ok { status := 404 }
      | _ => .ok { status := 200, body := "ok" }
    let played := (submitAll { url := "http://console", retryBase := 100 } [run, run, run]).play (answering answers)
      (fun seen _ => seen) { seen := () }
    played.1.map (·.map (·.isOk)) = some [true, false, false] ∧ played.2.calls.map Prod.fst = [0, 100, 300, 300, 300] := by
  decide +kernel

end Runbook.Delivery

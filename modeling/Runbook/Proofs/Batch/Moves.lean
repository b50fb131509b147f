import Runbook.Proofs.Batch.Untimed
import Runbook.Run.Batch
import Mathlib.Data.Set.List

/-!
Interleavings of several runs: the moves of their jobs, in any order that the workers allow. A move changes the slot of
one job. It leaves alone what every job comes to, and no job makes moves without end.
-/

namespace Runbook.Batch

open Interaction

variable {σ : Type} {options : RunOptions} {workers : Nat} {executor : Executor} {observe : σ → Note → σ}
  {reply : Request → Option Outcome}

/-- Jobs make moves one after another, in the given order. -/
inductive Interleaves (options : RunOptions) (workers : Nat) (executor : Executor) (observe : σ → Note → σ) :
    List Slot → World σ → List Nat → List Slot → World σ → Prop where
  | nil {slots : List Slot} {world : World σ} : Interleaves options workers executor observe slots world [] slots world
  | cons {index : Nat} {rest : List Nat} {slots between after : List Slot} {world middle final : World σ}
      (moves : move options workers executor observe slots world index = some (between, middle))
      (later : Interleaves options workers executor observe between middle rest after final) :
      Interleaves options workers executor observe slots world (index :: rest) after final

/-- No job can make a move. -/
def Complete (options : RunOptions) (workers : Nat) (executor : Executor) (observe : σ → Note → σ) (slots : List Slot)
    (world : World σ) : Prop :=
  ∀ index, move options workers executor observe slots world index = none

theorem Interleaves.append {slots between after : List Slot} {world middle final : World σ} {first second : List Nat}
    (front : Interleaves options workers executor observe slots world first between middle)
    (back : Interleaves options workers executor observe between middle second after final) :
    Interleaves options workers executor observe slots world (first ++ second) after final := by
  induction front with
  | nil => exact back
  | cons moves _ ih => exact .cons moves (ih back)

/-- What a move can do to the slot of its job. -/
inductive Moves (options : RunOptions) (workers : Nat) (executor : Executor) (observe : σ → Note → σ)
    (slots : List Slot) (world : World σ) : Slot → Slot → World σ → Prop where
  | start {job : Job} (free : activeCount slots < workerCount workers) :
      Moves options workers executor observe slots world (.waiting job)
        (.active (job.interaction options world.canceled)) world
  | advance {interaction : Interaction (Except RunError Run)} :
      Moves options workers executor observe slots world (.active interaction)
        (.ofInteraction (interaction.advance executor observe world).1)
        (interaction.advance executor observe world).2

/-- A move changes one slot. -/
theorem move_eq_some_iff {slots after : List Slot} {world final : World σ} {index : Nat} :
    move options workers executor observe slots world index = some (after, final) ↔
      ∃ front slot back next, slots = front ++ slot :: back ∧ front.length = index ∧ after = front ++ next :: back ∧
        Moves options workers executor observe slots world slot next final := by
  constructor
  · intro moved
    -- The slot that is there and what it becomes tell the rest.
    have place {slot next : Slot} (atIndex : slots[index]? = some slot)
        (moves : Moves options workers executor observe slots world slot next final)
        (ends : slots.set index next = after) :
        ∃ front slot back next, slots = front ++ slot :: back ∧ front.length = index ∧ after = front ++ next :: back ∧
          Moves options workers executor observe slots world slot next final := by
      obtain ⟨inside, rfl⟩ := List.getElem?_eq_some_iff.mp atIndex
      obtain ⟨front, back, whole, length, changed⟩ : ∃ front back, slots = front ++ slots[index] :: back ∧
          front.length = index ∧ slots.set index next = front ++ next :: back := List.exists_of_set inside
      exact ⟨front, _, back, next, whole, length, ends.symm.trans changed, moves⟩
    unfold move at moved
    split at moved
    · next job atIndex =>
      split at moved
      · next free =>
        obtain ⟨ends, rfl⟩ := Prod.mk.inj (Option.some.inj moved)
        exact place atIndex (.start free) ends
      · cases moved
    · next interaction atIndex =>
      obtain ⟨ends, rfl⟩ := Prod.mk.inj (Option.some.inj moved)
      exact place atIndex .advance ends
    · cases moved
    · cases moved
  · rintro ⟨front, slot, back, next, rfl, rfl, rfl, moves⟩
    unfold move
    rw [List.getElem?_append_right (Nat.le_refl _), Nat.sub_self, List.getElem?_cons_zero]
    cases moves with
    | start free => simp [free]
    | advance => simp

theorem activeCount_eq_zero {slots : List Slot} (idle : ∀ interaction, .active interaction ∉ slots) :
    activeCount slots = 0 := by
  refine List.countP_eq_zero.mpr fun slot member active => ?_
  cases slot with
  | active interaction => exact idle interaction member
  | waiting => cases active
  | finished => cases active

/-- While no job is active, there is a worker for one. -/
theorem free_of_idle {slots : List Slot} (idle : ∀ interaction, .active interaction ∉ slots) :
    activeCount slots < workerCount workers := by
  rw [activeCount_eq_zero idle, workerCount]
  omega

/-- Where no job can make a move, every job has its result. -/
theorem Complete.finished {slots : List Slot} {world : World σ}
    (complete : Complete options workers executor observe slots world) :
    ∃ results : List (Except RunError Run), slots = results.map Slot.finished := by
  have stuck {slot next : Slot} {final : World σ} (member : slot ∈ slots)
      (moves : Moves options workers executor observe slots world slot next final) : False := by
    obtain ⟨front, back, rfl⟩ := List.append_of_mem member
    have moved := move_eq_some_iff.mpr ⟨front, slot, back, next, rfl, rfl, rfl, moves⟩
    rw [complete front.length] at moved
    cases moved
  have idle (interaction : Interaction (Except RunError Run)) : .active interaction ∉ slots := fun member =>
    stuck member .advance
  have ended : slots ∈ Set.range (List.map Slot.finished) := by
    rw [Set.range_list_map]
    intro slot member
    cases slot with
    | active interaction => exact absurd member (idle interaction)
    | waiting => exact (stuck member (.start (free_of_idle idle))).elim
    | finished result => exact ⟨result, rfl⟩
  obtain ⟨results, rfl⟩ := ended
  exact ⟨results, rfl⟩

/-- What a computation comes to, apart from the times: its result, or that it broke down. -/
def conclusion (settled : Option (Except RunError Run)) : Except RunError Run :=
  (settled.map (Except.map Run.untimed)).getD (.error .incomplete)

namespace Slot

/-- What the job of a slot comes to, if nothing cancels it. -/
def outcome (options : RunOptions) (reply : Request → Option Outcome) : Slot → Except RunError Run
  | waiting job => conclusion ((job.interaction options false).settle reply)
  | active interaction => conclusion (interaction.settle reply)
  | finished result => result.map Run.untimed

/-- The number of moves that the job of a slot makes at most. -/
def movesLeft (options : RunOptions) (reply : Request → Option Outcome) : Slot → Nat
  | waiting job => (job.interaction options false).movesLeft reply + 1
  | active interaction => interaction.movesLeft reply
  | finished _ => 0

/-- A job in progress takes its way whatever time its answers take. -/
def Timeless : Slot → Prop
  | active interaction => SameOn (Except.map Run.untimed) interaction interaction
  | waiting _ | finished _ => True

variable {interaction : Interaction (Except RunError Run)}

theorem timeless_ofInteraction (same : SameOn (Except.map Run.untimed) interaction interaction) :
    (ofInteraction (some interaction)).Timeless := by
  cases interaction with
  | done => trivial
  | call | wait | note => exact same

theorem outcome_ofInteraction :
    (ofInteraction (some interaction)).outcome options reply = conclusion (interaction.settle reply) := by
  cases interaction <;> rfl

theorem movesLeft_ofInteraction :
    (ofInteraction (some interaction)).movesLeft options reply ≤ interaction.movesLeft reply := by
  cases interaction with
  | done => exact Nat.zero_le _
  | call | wait | note => exact Nat.le_refl _

end Slot

/-- What a move keeps: nothing is canceled, and the job comes to the same, in fewer moves. -/
theorem Moves.keeps {slots : List Slot} {slot next : Slot} {world final : World σ} (replies : executor.Replies reply)
    (steady : executor.Steady) (calm : world.canceled = false) (timeless : slot.Timeless)
    (moves : Moves options workers executor observe slots world slot next final) :
    final.canceled = false ∧ next.Timeless ∧ next.outcome options reply = slot.outcome options reply ∧
      next.movesLeft options reply < slot.movesLeft options reply := by
  cases moves with
  | start =>
    refine ⟨calm, ?_⟩
    rw [calm]
    exact ⟨Engine.run_sameOn options _ _, rfl, Nat.lt_succ_self _⟩
  | @advance interaction =>
    obtain ⟨advances, quiet⟩ : Advances reply _ interaction (interaction.advance executor observe world).1 ∧
        (interaction.advance executor observe world).2.canceled = false :=
      advance_advances replies steady calm timeless
    refine ⟨quiet, ?_⟩
    generalize (interaction.advance executor observe world).1 = left at advances
    cases advances with
    | ends settles =>
      refine ⟨trivial, ?_, movesLeft_pos interaction⟩
      simp only [Slot.ofInteraction, Slot.outcome, conclusion, settles, Option.getD_some]
    | goesOn same settles fewer =>
      refine ⟨Slot.timeless_ofInteraction same, ?_, Nat.lt_of_le_of_lt Slot.movesLeft_ofInteraction fewer⟩
      rw [Slot.outcome_ofInteraction]
      simp only [Slot.outcome, conclusion, settles]
    | breaks settles =>
      refine ⟨trivial, ?_, movesLeft_pos interaction⟩
      simp only [Slot.ofInteraction, Slot.outcome, conclusion, settles]
      rfl

/-- Jobs in progress that nothing cancels: what each of them comes to is settled, and there is a worker for each active
one. -/
structure Running (options : RunOptions) (workers : Nat) (reply : Request → Option Outcome)
    (expected : List (Except RunError Run)) (slots : List Slot) (world : World σ) : Prop where
  calm : world.canceled = false
  timeless : ∀ slot ∈ slots, slot.Timeless
  outcomes : slots.map (Slot.outcome options reply) = expected
  limited : activeCount slots ≤ workerCount workers

/-- The number of moves that all jobs together make at most. -/
def movesLeft (options : RunOptions) (reply : Request → Option Outcome) : List Slot → Nat
  | [] => 0
  | slot :: rest => slot.movesLeft options reply + movesLeft options reply rest

theorem movesLeft_append (front back : List Slot) :
    movesLeft options reply (front ++ back) = movesLeft options reply front + movesLeft options reply back := by
  induction front with
  | nil => exact (Nat.zero_add _).symm
  | cons slot rest ih => rw [List.cons_append, movesLeft, movesLeft, ih, Nat.add_assoc]

/-- No more jobs are active after a move than there are workers. -/
theorem Moves.activeCount_le {front back : List Slot} {slot next : Slot} {world final : World σ}
    (moves : Moves options workers executor observe (front ++ slot :: back) world slot next final)
    (limited : activeCount (front ++ slot :: back) ≤ workerCount workers) :
    activeCount (front ++ next :: back) ≤ workerCount workers := by
  have count (slot : Slot) : activeCount (front ++ slot :: back) =
      activeCount front + activeCount back + if slot.isActive then 1 else 0 := by
    simp only [activeCount, List.countP_append, List.countP_cons, Nat.add_assoc]
  cases moves with
  | start free =>
    rw [count] at free ⊢
    simp only [Slot.isActive, if_true, Bool.false_eq_true, if_false, Nat.add_zero] at free ⊢
    exact free
  | advance =>
    rw [count] at limited ⊢
    simp only [Slot.isActive, if_true] at limited
    split <;> omega

theorem Running.move {expected : List (Except RunError Run)} {slots after : List Slot} {world final : World σ}
    {index : Nat} (replies : executor.Replies reply) (steady : executor.Steady)
    (running : Running options workers reply expected slots world)
    (moved : move options workers executor observe slots world index = some (after, final)) :
    Running options workers reply expected after final ∧
      movesLeft options reply after < movesLeft options reply slots := by
  obtain ⟨front, slot, back, next, rfl, -, rfl, moves⟩ := move_eq_some_iff.mp moved
  obtain ⟨quiet, timeless, same, fewer⟩ := moves.keeps replies steady running.calm (running.timeless slot (by simp))
  refine ⟨⟨quiet, fun other member => ?_, ?_, moves.activeCount_le running.limited⟩, ?_⟩
  · rcases List.mem_append.mp member with before | rest
    · exact running.timeless other (List.mem_append_left _ before)
    · rcases List.mem_cons.mp rest with rfl | behind
      · exact timeless
      · exact running.timeless other (by simp [behind])
  · rw [← running.outcomes]
    simp only [List.map_append, List.map_cons, same]
  · rw [movesLeft_append, movesLeft_append, movesLeft, movesLeft]
    omega

/-- However the moves are ordered, the jobs come to what they came to before, and there are not too many moves. -/
theorem Running.interleaves {expected : List (Except RunError Run)} {slots after : List Slot} {world final : World σ}
    {indices : List Nat} (replies : executor.Replies reply) (steady : executor.Steady)
    (running : Running options workers reply expected slots world)
    (interleaves : Interleaves options workers executor observe slots world indices after final) :
    Running options workers reply expected after final ∧
      indices.length + movesLeft options reply after ≤ movesLeft options reply slots := by
  induction interleaves with
  | nil => exact ⟨running, (Nat.zero_add _).le⟩
  | cons moves _ ih =>
    obtain ⟨next, fewer⟩ := running.move replies steady moves
    obtain ⟨ended, bounded⟩ := ih next
    refine ⟨ended, ?_⟩
    rw [List.length_cons]
    omega

/-- Jobs in progress can be carried on until all have their results. -/
theorem Running.completes {expected : List (Except RunError Run)} {slots : List Slot} {world : World σ}
    (replies : executor.Replies reply) (steady : executor.Steady)
    (running : Running options workers reply expected slots world) :
    ∃ indices after final, Interleaves options workers executor observe slots world indices after final ∧
      Complete options workers executor observe after final := by
  -- The induction is on the number of moves that are left; each move uses one of them up.
  induction left : movesLeft options reply slots using Nat.strong_induction_on generalizing slots world with
  | _ left ih =>
    by_cases complete : Complete options workers executor observe slots world
    · exact ⟨[], slots, world, .nil, complete⟩
    · simp only [Complete, not_forall, ← ne_eq, Option.ne_none_iff_exists'] at complete
      obtain ⟨index, ⟨between, middle⟩, moved⟩ := complete
      obtain ⟨next, fewer⟩ := running.move replies steady moved
      obtain ⟨indices, after, final, interleaves, ended⟩ := ih _ (left ▸ fewer) next rfl
      exact ⟨index :: indices, after, final, .cons moved interleaves, ended⟩

/-- Before the first move every job comes to the result of its own interaction. -/
theorem running_waiting (jobs : List Job) {world : World σ} (calm : world.canceled = false) :
    Running options workers reply (jobs.map fun job => conclusion ((job.interaction options false).settle reply))
      (jobs.map .waiting) world where
  calm := calm
  timeless slot member := by
    obtain ⟨job, -, rfl⟩ := List.mem_map.mp member
    trivial
  outcomes := List.map_map
  limited := (free_of_idle fun interaction member => by simp at member).le

end Runbook.Batch

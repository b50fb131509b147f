import Runbook.Run.Interaction

/-!
Interactions that come to a result, whoever observes them: `Runs` tells the result, the notes left on the way and the
surroundings afterwards. Playing an interaction gives exactly that, with the notes handed to the observer in order.
-/

namespace Runbook.Interaction

variable {α β σ : Type}

/-- Every request is answered. -/
def Executor.Answers (executor : Executor) : Prop := ∀ earlier request, (executor earlier request).isSome

/-- No answer cancels the run. -/
def Executor.Steady (executor : Executor) : Prop :=
  ∀ earlier request served, executor earlier request = some served → served.cancels = false

namespace World

/-- The surroundings without the observer. -/
def forget (world : World σ) : World Unit := ⟨world.calls, world.clock, world.canceled, ()⟩

/-- The surroundings after a request is sent and answered. -/
def answered (world : World σ) (request : Request) (served : Served) : World σ :=
  { world with calls := world.calls ++ [(world.clock, request)], canceled := world.canceled || served.cancels }

/-- The surroundings after a wait. -/
def waited (world : World σ) (millis : Nat) : World σ := { world with clock := world.clock + millis }

@[simp] theorem requests_answered (world : World σ) (request : Request) (served : Served) :
    (world.answered request served).requests = world.requests ++ [request] := by
  simp [requests, answered]

@[simp] theorem requests_waited (world : World σ) (millis : Nat) : (world.waited millis).requests = world.requests :=
  rfl

@[simp] theorem requests_forget (world : World σ) : world.forget.requests = world.requests := rfl

/-- Surroundings are told by what is left without the observer and by what the observer has made of the notes. -/
theorem ext_forget {world other : World σ} (same : world.forget = other.forget) (seen : world.seen = other.seen) :
    world = other := by
  cases world
  cases other
  cases same
  cases seen
  rfl

end World

/-- An interaction comes to a result, leaving notes on the way. -/
inductive Runs (executor : Executor) : Interaction α → World Unit → List Note → α → World Unit → Prop where
  | done {result : α} {world : World Unit} : Runs executor (.done result) world [] result world
  | call {request : Request} {resume : Answer → Interaction α} {world final : World Unit} {served : Served}
      {notes : List Note} {result : α} (answer : executor world.requests request = some served)
      (rest : Runs executor (resume ⟨served.outcome, served.elapsed, world.canceled || served.cancels⟩)
        (world.answered request served) notes result final) :
      Runs executor (.call request resume) world notes result final
  | wait {millis : Nat} {resume : Bool → Interaction α} {world final : World Unit} {notes : List Note} {result : α}
      (rest : Runs executor (resume world.canceled) (world.waited millis) notes result final) :
      Runs executor (.wait millis resume) world notes result final
  | note {content : Note} {next : Interaction α} {world final : World Unit} {notes : List Note} {result : α}
      (rest : Runs executor next world notes result final) :
      Runs executor (.note content next) world (content :: notes) result final

variable {executor : Executor} {observe : σ → Note → σ}

theorem play_call {request : Request} {resume : Answer → Interaction α} {world : World σ} :
    play executor observe (.call request resume) world =
      match executor world.requests request with
      | some served => play executor observe
          (resume ⟨served.outcome, served.elapsed, world.canceled || served.cancels⟩) (world.answered request served)
      | none => (none, { world with calls := world.calls ++ [(world.clock, request)] }) := by
  simp only [play, World.serve]
  cases executor world.requests request <;> rfl

/-- An interaction that runs is played to the same result, and its observer is told the notes. -/
theorem Runs.play_eq {interaction : Interaction α} {notes : List Note} {result : α} {final : World Unit}
    {world : World σ} (runs : Runs executor interaction world.forget notes result final) :
    interaction.play executor observe world =
      (some result, ⟨final.calls, final.clock, final.canceled, notes.foldl observe world.seen⟩) := by
  generalize start : world.forget = bare at runs
  induction runs generalizing world with
  | done =>
    subst start
    rfl
  | call answer rest ih =>
    subst start
    rw [World.requests_forget] at answer
    simp only [play_call, answer]
    exact ih rfl
  | @wait millis resume _ _ _ _ rest ih =>
    subst start
    exact ih (rfl : (world.waited millis).forget = _)
  | @note content next _ _ _ _ rest ih =>
    subst start
    exact ih (rfl : World.forget { world with seen := observe world.seen content } = _)

/-- An interaction that is played to a result runs to it. -/
theorem exists_runs_of_play {interaction : Interaction α} {world final : World σ} {result : α}
    (played : interaction.play executor observe world = (some result, final)) :
    ∃ notes, Runs executor interaction world.forget notes result final.forget ∧
      final.seen = notes.foldl observe world.seen := by
  induction interaction generalizing world with
  | done value =>
    cases played
    exact ⟨[], .done, rfl⟩
  | call request resume ih =>
    rw [play_call] at played
    split at played
    · next served answer =>
      obtain ⟨notes, runs, seen⟩ := ih _ played
      exact ⟨notes, .call answer runs, seen⟩
    · cases played
  | wait millis resume ih =>
    have rest : (resume world.canceled).play executor observe (world.waited millis) = (some result, final) := played
    obtain ⟨notes, runs, seen⟩ := ih _ rest
    exact ⟨notes, .wait runs, seen⟩
  | note content rest ih =>
    have later : rest.play executor observe { world with seen := observe world.seen content } = (some result, final) :=
      played
    obtain ⟨notes, runs, seen⟩ := ih later
    exact ⟨content :: notes, .note runs, seen⟩

/-- With an executor that always answers, an interaction comes to a result. -/
theorem exists_play (answers : executor.Answers) (interaction : Interaction α)
    (world : World σ) : ∃ result final, interaction.play executor observe world = (some result, final) := by
  induction interaction generalizing world with
  | done value => exact ⟨value, world, rfl⟩
  | call request resume ih =>
    obtain ⟨served, answer⟩ := Option.isSome_iff_exists.mp (answers world.requests request)
    rw [play_call, answer]
    exact ih _ _
  | wait millis resume ih => exact ih _ (world.waited millis)
  | note content rest ih => exact ih { world with seen := observe world.seen content }

/-- An interaction that goes on with another one runs through both. -/
theorem runs_bind_iff {interaction : Interaction α} {next : α → Interaction β} {world final : World Unit}
    {notes : List Note} {result : β} :
    Runs executor (interaction.bind next) world notes result final ↔
      ∃ value first second middle, notes = first ++ second ∧ Runs executor interaction world first value middle ∧
        Runs executor (next value) middle second result final := by
  constructor
  · intro runs
    induction interaction generalizing world notes with
    | done value => exact ⟨value, [], notes, world, rfl, .done, runs⟩
    | call request resume ih =>
      cases runs with
      | call answer rest =>
        obtain ⟨value, first, second, middle, split, left, right⟩ := ih _ rest
        exact ⟨value, first, second, middle, split, .call answer left, right⟩
    | wait millis resume ih =>
      cases runs with
      | wait rest =>
        obtain ⟨value, first, second, middle, split, left, right⟩ := ih _ rest
        exact ⟨value, first, second, middle, split, .wait left, right⟩
    | note content rest ih =>
      cases runs with
      | note rest =>
        obtain ⟨value, first, second, middle, split, left, right⟩ := ih rest
        exact ⟨value, content :: first, second, middle, by rw [split, List.cons_append], .note left, right⟩
  · rintro ⟨value, first, second, middle, rfl, left, right⟩
    induction left with
    | done => exact right
    | call answer _ ih => exact .call answer (ih right)
    | wait _ ih => exact .wait (ih right)
    | note _ ih => exact .note (ih right)

/-- While no answer cancels, nothing does. -/
theorem Runs.canceled_eq {interaction : Interaction α} {world final : World Unit} {notes : List Note} {result : α}
    (steady : executor.Steady)
    (runs : Runs executor interaction world notes result final) : final.canceled = world.canceled := by
  induction runs with
  | done => rfl
  | call answer _ ih => rw [ih, World.answered, steady _ _ _ answer, Bool.or_false]
  | wait _ ih => exact ih
  | note _ ih => exact ih

end Runbook.Interaction

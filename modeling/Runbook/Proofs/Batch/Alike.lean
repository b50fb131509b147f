import Runbook.Proofs.Run.Interrupt

/-!
Interactions that differ only in the time that their answers take. While nothing cancels the run and a request is always
answered by the same reply, such interactions come to results that agree, whatever else goes on between their requests.
-/

namespace Runbook.Interaction

variable {α β γ σ : Type} {executor : Executor} {reply : Request → Option Outcome}

/-- What the executor replies to a request is a function of the request alone; the time that it takes is not. -/
def Executor.Replies (executor : Executor) (reply : Request → Option Outcome) : Prop :=
  ∀ earlier request, (executor earlier request).map Served.outcome = reply request

/-- A request breaks the executor down just when there is no reply to it. -/
theorem Executor.Replies.eq_none_iff (replies : executor.Replies reply) {earlier : List Request} {request : Request} :
    executor earlier request = none ↔ reply request = none := by
  rw [← replies earlier request, Option.map_eq_none_iff]

theorem Executor.Replies.eq_some (replies : executor.Replies reply) {earlier : List Request} {request : Request}
    {served : Served} (answer : executor earlier request = some served) : reply request = some served.outcome := by
  rw [← replies earlier request, answer, Option.map_some]

/-- Two interactions send the same requests and wait alike, whatever time the answers take, and their results are
related. -/
inductive Alike (related : α → β → Prop) : Interaction α → Interaction β → Prop where
  | done {first : α} {second : β} (results : related first second) : Alike related (.done first) (.done second)
  | call {request : Request} {first : Answer → Interaction α} {second : Answer → Interaction β}
      (rest : ∀ answer other : Answer, answer.outcome = other.outcome → answer.canceled = other.canceled →
        Alike related (first answer) (second other)) :
      Alike related (.call request first) (.call request second)
  | wait {millis : Nat} {first : Bool → Interaction α} {second : Bool → Interaction β}
      (rest : ∀ canceled, Alike related (first canceled) (second canceled)) :
      Alike related (.wait millis first) (.wait millis second)
  | note {content other : Note} {first : Interaction α} {second : Interaction β} (rest : Alike related first second) :
      Alike related (.note content first) (.note other second)

/-- Interactions that are alike and go on alike are alike as a whole. -/
theorem Alike.bind {α' β' : Type} {related : α → β → Prop} {goal : α' → β' → Prop} {first : Interaction α}
    {second : Interaction β} {next : α → Interaction α'} {other : β → Interaction β'}
    (alike : Alike related first second)
    (further : ∀ result value, related result value → Alike goal (next result) (other value)) :
    Alike goal (first.bind next) (second.bind other) := by
  induction alike with
  | done results => exact further _ _ results
  | call _ ih => exact .call fun answer other outcome canceled => ih answer other outcome canceled
  | wait _ ih => exact .wait ih
  | note _ ih => exact .note ih

/-- The result of an interaction that nothing cancels, when its requests are answered in no time. -/
def settle (reply : Request → Option Outcome) : Interaction α → Option α
  | done result => some result
  | call request resume =>
    match reply request with
    | some outcome => settle reply (resume { outcome })
    | none => none
  | wait _ resume => settle reply (resume false)
  | note _ rest => settle reply rest

/-- The number of moves that such an interaction can still make. -/
def movesLeft (reply : Request → Option Outcome) : Interaction α → Nat
  | done _ => 1
  | call request resume =>
    match reply request with
    | some outcome => movesLeft reply (resume { outcome }) + 1
    | none => 1
  | wait _ resume => movesLeft reply (resume false) + 1
  | note _ rest => movesLeft reply rest

theorem movesLeft_pos (interaction : Interaction α) : 0 < interaction.movesLeft reply := by
  induction interaction with
  | done => exact Nat.one_pos
  | call request =>
    unfold movesLeft
    split <;> omega
  | wait => exact Nat.succ_pos _
  | note _ _ ih => exact ih

/-- Two interactions differ only in time, also in what is told of their results. -/
abbrev SameOn (told : α → γ) : Interaction α → Interaction α → Prop :=
  Alike fun first second => told first = told second

variable {told : α → γ}

theorem Alike.settle_eq {first second : Interaction α} (same : SameOn told first second) :
    (first.settle reply).map told = (second.settle reply).map told := by
  induction same with
  | done results => exact congrArg some results
  | @call request _ _ _ ih =>
    unfold settle
    cases reply request with
    | some outcome => exact ih _ _ rfl rfl
    | none => rfl
  | wait _ ih => exact ih false
  | note _ ih => exact ih

theorem Alike.movesLeft_eq {first second : Interaction α} (same : SameOn told first second) :
    first.movesLeft reply = second.movesLeft reply := by
  induction same with
  | done => rfl
  | @call request _ _ _ ih =>
    unfold movesLeft
    cases reply request with
    | some outcome => exact congrArg (· + 1) (ih _ _ rfl rfl)
    | none => rfl
  | wait _ ih => exact congrArg (· + 1) (ih false)
  | note _ ih => exact ih

/-- What playing an interaction gives is told by the replies alone. -/
theorem play_settle {observe : σ → Note → σ} {interaction : Interaction α} {world : World σ}
    (replies : executor.Replies reply) (steady : executor.Steady) (calm : world.canceled = false)
    (same : SameOn told interaction interaction) :
    (interaction.play executor observe world).1.map told = (interaction.settle reply).map told := by
  induction interaction generalizing world with
  | done => rfl
  | call request resume ih =>
    rw [play_call]
    unfold settle
    cases same with
    | call rest =>
      cases answer : executor world.requests request with
      | none => simp only [replies.eq_none_iff.mp answer, Option.map_none]
      | some served =>
        have quiet : (world.canceled || served.cancels) = false := by rw [calm, steady _ _ _ answer, Bool.or_false]
        simp only [replies.eq_some answer]
        rw [ih _ quiet (rest _ _ rfl rfl)]
        exact Alike.settle_eq (rest ⟨served.outcome, served.elapsed, _⟩ ⟨served.outcome, 0, false⟩ rfl quiet)
  | wait millis resume ih =>
    cases same with
    | wait rest =>
      show ((resume world.canceled).play executor observe (world.waited millis)).1.map told = _
      rw [calm]
      exact ih false calm (rest false)
  | note content next ih =>
    cases same with
    | note rest => exact ih calm rest

/-- An interaction that is played breaks down just when one of its requests has no reply. -/
theorem play_eq_none_iff {observe : σ → Note → σ} (replies : executor.Replies reply) (interaction : Interaction α)
    (world : World σ) : ∃ sent, (interaction.play executor observe world).2.requests = world.requests ++ sent ∧
      ((interaction.play executor observe world).1 = none ↔ ∃ request ∈ sent, reply request = none) := by
  induction interaction generalizing world with
  | done => exact ⟨[], by simp [play]⟩
  | call request resume ih =>
    rw [play_call]
    cases answer : executor world.requests request with
    | none => exact ⟨[request], by simp [World.requests], by simp [replies.eq_none_iff.mp answer]⟩
    | some served =>
      obtain ⟨sent, requests, none_iff⟩ :=
        ih ⟨served.outcome, served.elapsed, world.canceled || served.cancels⟩ (world.answered request served)
      refine ⟨request :: sent, ?_, ?_⟩
      · simpa using requests
      · simpa [replies.eq_some answer] using none_iff
  | wait millis resume ih => exact ih world.canceled (world.waited millis)
  | note content next ih => exact ih { world with seen := observe world.seen content }

theorem advance_call {observe : σ → Note → σ} {request : Request} {resume : Answer → Interaction α} {world : World σ} :
    advance executor observe (.call request resume) world =
      match executor world.requests request with
      | some served => (some (resume ⟨served.outcome, served.elapsed, world.canceled || served.cancels⟩),
          world.answered request served)
      | none => (none, { world with calls := world.calls ++ [(world.clock, request)] }) := by
  simp only [advance, World.serve]
  cases executor world.requests request <;> rfl

/-- What is left of an interaction after a move: nothing but its result, something that comes to the same result in
fewer moves, or nothing at all. -/
inductive Advances (reply : Request → Option Outcome) (told : α → γ) (interaction : Interaction α) :
    Option (Interaction α) → Prop where
  | ends {result : α} (settles : (interaction.settle reply).map told = some (told result)) :
      Advances reply told interaction (some (.done result))
  | goesOn {next : Interaction α} (same : SameOn told next next)
      (settles : (interaction.settle reply).map told = (next.settle reply).map told)
      (fewer : next.movesLeft reply < interaction.movesLeft reply) : Advances reply told interaction (some next)
  | breaks (settles : interaction.settle reply = none) : Advances reply told interaction none

theorem Advances.note {interaction : Interaction α} {left : Option (Interaction α)}
    (advances : Advances reply told interaction left) (content : Note) :
    Advances reply told (.note content interaction) left := by
  cases advances with
  | ends settles => exact .ends settles
  | goesOn same settles fewer => exact .goesOn same settles fewer
  | breaks settles => exact .breaks settles

theorem advance_advances {observe : σ → Note → σ} {interaction : Interaction α} {world : World σ}
    (replies : executor.Replies reply) (steady : executor.Steady) (calm : world.canceled = false)
    (same : SameOn told interaction interaction) :
    Advances reply told interaction (interaction.advance executor observe world).1 ∧
      (interaction.advance executor observe world).2.canceled = false := by
  induction interaction generalizing world with
  | done => exact ⟨.ends rfl, calm⟩
  | call request resume ih =>
    cases same with
    | call rest =>
      rw [advance_call]
      cases answer : executor world.requests request with
      | none => exact ⟨.breaks (by simp only [settle, replies.eq_none_iff.mp answer]), calm⟩
      | some served =>
        have quiet : (world.canceled || served.cancels) = false := by rw [calm, steady _ _ _ answer, Bool.or_false]
        have timed := rest ⟨served.outcome, 0, false⟩
          ⟨served.outcome, served.elapsed, world.canceled || served.cancels⟩ rfl quiet.symm
        refine ⟨.goesOn (rest _ _ rfl rfl) ?_ ?_, quiet⟩
        · simpa only [settle, replies.eq_some answer] using timed.settle_eq
        · simp only [movesLeft, replies.eq_some answer, timed.movesLeft_eq]
          exact Nat.lt_succ_self _
  | wait millis resume ih =>
    cases same with
    | wait rest =>
      simp only [advance, calm]
      exact ⟨.goesOn (rest false) rfl (Nat.lt_succ_self _), trivial⟩
  | note content next ih =>
    cases same with
    | note rest =>
      have after : World.canceled { world with seen := observe world.seen content } = false := calm
      obtain ⟨advances, quiet⟩ := ih after rest
      exact ⟨advances.note content, quiet⟩

end Runbook.Interaction

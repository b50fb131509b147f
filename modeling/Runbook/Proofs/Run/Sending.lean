import Mathlib.Algebra.GroupWithZero.Nat
import Mathlib.Algebra.Order.Ring.Nat
import Mathlib.Order.Bounds.Basic
import Runbook.Proofs.Control
import Runbook.Proofs.Run.Runs
import Runbook.Proofs.Run.Step
import Runbook.Proofs.Template.Filled
import Runbook.Run.Engine

/-!
Sending requests. A request is sent again behind network errors only, with a wait before each retry, until it gets a
response, the run is canceled while it is in flight, or no retry is left. Neither the word that holds the power nor the
one that holds the product is ever seen in a wait: it is the base doubled with each attempt, up to the longest wait.
-/

namespace Runbook.Engine

open Interaction

/-! The wait before a retry -/

section Wait

variable {base attempt : Nat}

/-- The greatest word passes the longest wait, so what is cut off there does not show. -/
theorem min_wordLimit (millis : Nat) : min (min millis wordLimit) longestWait = min millis longestWait := by
  have shorter : longestWait ≤ wordLimit := by decide
  rw [min_assoc, min_eq_right shorter]

/-- From attempt 64 on, the power in place of which the greatest word stands passes the longest wait as well. -/
theorem longestWait_le_two_pow (late : 64 ≤ attempt) : longestWait ≤ 2 ^ attempt :=
  calc longestWait
    _ ≤ 2 ^ 64 := by decide
    _ ≤ 2 ^ attempt := Nat.pow_le_pow_right (by decide) late

/-- Two factors that both pass the longest wait cannot be told apart by it, whatever the base is; a base of zero has no
wait with either. -/
theorem min_mul_eq {factor other : Nat} (large : longestWait ≤ factor) (great : longestWait ≤ other) :
    min (base * factor) longestWait = min (base * other) longestWait := by
  cases base with
  | zero => rw [Nat.zero_mul, Nat.zero_mul]
  | succ base =>
    rw [min_eq_right (large.trans (Nat.le_mul_of_pos_left factor base.succ_pos)),
      min_eq_right (great.trans (Nat.le_mul_of_pos_left other base.succ_pos))]

theorem retryWait_eq (base attempt : Nat) : retryWait base attempt = min (base * 2 ^ attempt) longestWait := by
  unfold retryWait
  rw [min_wordLimit]
  by_cases early : attempt < 64
  · rw [if_pos early, Nat.one_shiftLeft]
  · rw [if_neg early]
    exact min_mul_eq (by decide) (longestWait_le_two_pow (Nat.not_lt.mp early))

theorem retryWait_le (base attempt : Nat) : retryWait base attempt ≤ longestWait := by
  rw [retryWait_eq]
  exact min_le_right _ _

theorem retryWait_mono : Monotone fun pair : Nat × Nat => retryWait pair.1 pair.2 := by
  rintro ⟨base, attempt⟩ ⟨larger, later⟩ ⟨bases, attempts⟩
  simp only [retryWait_eq]
  have powers : 2 ^ attempt ≤ 2 ^ later := Nat.pow_le_pow_right Nat.two_pos attempts
  exact min_le_min (Nat.mul_le_mul bases powers) le_rfl

theorem retryWait_eq_zero_iff : retryWait base attempt = 0 ↔ base = 0 := by
  rw [retryWait_eq, Nat.min_eq_zero_iff, Nat.mul_eq_zero]
  constructor
  · rintro ((none | impossible) | impossible)
    · exact none
    · exact absurd impossible (Nat.two_pow_pos attempt).ne'
    · exact absurd impossible (by decide)
  · exact fun none => .inl (.inl none)

/-- The wait after an attempt is the base times the power of two, without any bound on numbers, but thirty seconds at
most. So it grows with the base and with the attempts, and there is none exactly where the base is zero. -/
theorem retryWait_closed :
    (∀ base attempt, retryWait base attempt = min (base * 2 ^ attempt) 30000) ∧
    (Monotone fun pair : Nat × Nat => retryWait pair.1 pair.2) ∧
    (∀ base attempt, retryWait base attempt = 0 ↔ base = 0) ∧
    ∀ base attempt, retryWait base attempt ≤ 30000 :=
  ⟨retryWait_eq, retryWait_mono, fun _ _ => retryWait_eq_zero_iff, retryWait_le⟩

example : retryWait 0 64 = 0 := by decide

end Wait

/-! The attempts and what comes back for them -/

/-- What comes back for an attempt, counted from zero: the request is sent behind earlier ones and the attempts before. -/
def answerTo (executor : Executor) (earlier : List Request) (made : Request) (attempt : Nat) : Option Served :=
  executor (earlier ++ List.replicate attempt made) made

/-- The milliseconds of the waits behind a number of attempts in a row, the first of which has a number as well. -/
def waits (base first count : Nat) : Nat := ((List.range' first count).map (retryWait base)).sum

/-- The milliseconds that the answers to a number of attempts take. -/
def flight (executor : Executor) (earlier : List Request) (made : Request) (count : Nat) : Nat :=
  ((List.range count).map fun attempt => ((answerTo executor earlier made attempt).map Served.elapsed).getD 0).sum

variable {executor : Executor} {earlier : List Request} {made : Request} {served : Served}
  {base first count limit last : Nat} {outcome : Outcome}

theorem answerTo_zero : answerTo executor earlier made 0 = executor earlier made := by
  rw [answerTo, List.replicate_zero, List.append_nil]

/-- Behind one attempt the others are counted from zero again. -/
theorem answerTo_succ (attempt : Nat) :
    answerTo executor earlier made (attempt + 1) = answerTo executor (earlier ++ [made]) made attempt := by
  rw [answerTo, answerTo, List.append_assoc]
  rfl

theorem waits_succ : waits base first (count + 1) = retryWait base first + waits base (first + 1) count := rfl

theorem flight_succ (answer : executor earlier made = some served) :
    flight executor earlier made (count + 1) = served.elapsed + flight executor (earlier ++ [made]) made count := by
  simp [flight, List.range_succ_eq_map, answerTo_zero, answer, Function.comp_def, answerTo_succ]

/-- The attempts of a request behind earlier ones. Each but the last is a network error that does not cancel the run, and
the last one gives the outcome: it cancels the run, it gets a response, or no retry is left for it. -/
structure Tried (executor : Executor) (limit : Nat) (earlier : List Request) (made : Request) (last : Nat)
    (outcome : Outcome) : Prop where
  within : last ≤ limit
  failed : ∀ attempt < last, ∃ served error, answerTo executor earlier made attempt = some served ∧
    served.outcome = .error error ∧ served.cancels = false
  ended : ∃ served, answerTo executor earlier made last = some served ∧ served.outcome = outcome ∧
    (served.cancels = true ∨ (∃ reply, outcome = .ok reply) ∨ last = limit)

namespace Tried

/-- The first attempt is the last one. -/
theorem once (answer : executor earlier made = some served)
    (ends : served.cancels = true ∨ (∃ reply, served.outcome = .ok reply) ∨ limit = 0) :
    Tried executor limit earlier made 0 served.outcome where
  within := Nat.zero_le _
  failed _ below := absurd below (Nat.not_lt_zero _)
  ended := ⟨served, answerTo_zero.trans answer, rfl, ends.imp_right (Or.imp_right Eq.symm)⟩

/-- A failed attempt goes before the others. -/
theorem again {error : NetworkError} (answer : executor earlier made = some served)
    (failure : served.outcome = .error error) (calm : served.cancels = false)
    (rest : Tried executor limit (earlier ++ [made]) made last outcome) :
    Tried executor (limit + 1) earlier made (last + 1) outcome where
  within := Nat.succ_le_succ rest.within
  failed attempt below := by
    cases attempt with
    | zero => exact ⟨served, error, answerTo_zero.trans answer, failure, calm⟩
    | succ attempt =>
      rw [answerTo_succ]
      exact rest.failed attempt (Nat.lt_of_succ_lt_succ below)
  ended := by
    obtain ⟨final, answered, gives, ends⟩ := rest.ended
    exact ⟨final, (answerTo_succ last).trans answered, gives, ends.imp_right (Or.imp_right (congrArg Nat.succ))⟩

end Tried

/-- A request is tried until one of its attempts is the last. The attempts start behind the waits of all the attempts
before, and answers and waits make up the time that passes. -/
theorem exists_tried {limits : StepOptions} {attempt elapsed left : Nat} {world final : World Unit}
    {notes : List Note} {sent : Sent} (calm : world.canceled = false)
    (runs : Runs executor (send limits made attempt elapsed left) world notes sent final) :
    ∃ last, Tried executor left world.requests made last sent.outcome ∧
      final.calls = world.calls ++ (List.range (last + 1)).map (fun count =>
        (world.clock + waits limits.retryWait attempt count, made)) ∧
      sent.elapsed = elapsed + flight executor world.requests made (last + 1) +
        waits limits.retryWait attempt last := by
  -- What holds where the attempt that is answered is the last one.
  have settled {attempt elapsed left : Nat} {world : World Unit} {served : Served}
      (answer : executor world.requests made = some served)
      (ends : served.cancels = true ∨ (∃ reply, served.outcome = .ok reply) ∨ left = 0) :
      ∃ last, Tried executor left world.requests made last served.outcome ∧
        (world.answered made served).calls = world.calls ++ (List.range (last + 1)).map (fun count =>
          (world.clock + waits limits.retryWait attempt count, made)) ∧
        elapsed + served.elapsed = elapsed + flight executor world.requests made (last + 1) +
          waits limits.retryWait attempt last :=
    ⟨0, .once answer ends, rfl, by rw [flight_succ answer]; rfl⟩
  induction left generalizing attempt elapsed world notes with
  | zero =>
    cases runs with
    | call answer rest =>
      cases rest with
      | note rest =>
        cases rest
        exact settled answer (.inr (.inr rfl))
  | succ left ih =>
    cases runs with
    | @call _ _ _ _ served _ _ answer rest =>
      cases rest with
      | note rest =>
        cases outcome : served.outcome with
        | ok reply =>
          simp only [outcome] at rest
          cases rest
          exact outcome ▸ settled answer (.inr (.inl ⟨reply, outcome⟩))
        | error error =>
          simp only [outcome, calm, Bool.false_or] at rest
          split at rest
          · next cancels =>
            cases rest
            exact outcome ▸ settled answer (.inl cancels)
          · next quiet =>
            cases rest with
            | note rest =>
              cases rest with
              | wait rest =>
                have calmly : served.cancels = false := by simpa using quiet
                have still : (world.canceled || served.cancels) = false := by rw [calm, calmly]; rfl
                obtain ⟨last, tried, calls, time⟩ := ih still rest
                rw [World.requests_waited, World.requests_answered] at tried time
                refine ⟨last + 1, .again answer outcome calmly tried, ?_, ?_⟩
                · rw [calls, List.range_succ_eq_map (n := last + 1), List.map_cons, List.map_map]
                  simp [World.answered, World.waited, Function.comp_def, waits_succ, Nat.add_assoc]
                  rfl
                · rw [time, flight_succ answer, waits_succ]
                  omega

end Runbook.Engine

/-!
Sending the request of a step: which steps a request can be made of, and what comes of sending it and, after each
network error, sending it again.
-/

namespace Runbook

/-- The templates that the request of a step is made of. -/
def Step.templates (step : Step) : List String := step.url :: (step.headers.map Prod.snd ++ step.body.toList)

namespace Engine

open Interaction

/-- No request can be made of a step: a name in one of its templates is not known, or its URL is relative and the
environment has no base. -/
def Unsendable (environment : Environment) (draws : Template.Draws) (scope : Scope) (step : Step) : Prop :=
  (∃ template ∈ step.templates, ∃ name ∈ Template.names template, ¬scope.Knows name) ∨
    ∃ url, Template.resolve (draws.part 0) scope step.url = .ok url ∧ Request.isAbsolute url.toList = false ∧
      environment.baseUrl = none

variable {executor : Executor} {options : RunOptions} {environment : Environment} {draws : Template.Draws}
  {step : Step} {scope : Scope}

theorem exists_fillHeaders_iff {headers : Dict String} : (∃ filled, fillHeaders draws scope headers = .ok filled) ↔
    ∀ template ∈ headers.map Prod.snd, ∀ name ∈ Template.names template, scope.Knows name := by
  induction headers with
  | nil => simp [fillHeaders]
  | cons header rest ih =>
    obtain ⟨key, template⟩ := header
    have parts : (∃ filled, fillHeaders draws scope ((key, template) :: rest) = .ok filled) ↔
        (∃ text, Template.resolve (draws.part (rest.length + 2)) scope template = .ok text) ∧
          ∃ filled, fillHeaders draws scope rest = .ok filled := by
      rw [fillHeaders]
      cases Template.resolve (draws.part (rest.length + 2)) scope template <;>
        cases fillHeaders draws scope rest <;> simp [Bind.bind, Except.bind, pure, Except.pure]
    rw [parts, Template.exists_resolve_iff, ih]
    simp

theorem exists_resolveUrl_iff {base : Option String} {url : String} :
    (∃ full, Request.resolveUrl base url = .ok full) ↔ ¬(Request.isAbsolute url.toList = false ∧ base = none) := by
  unfold Request.resolveUrl
  cases Request.isAbsolute url.toList <;> cases base <;> simp

/-- The request of a step is made of its parts: its URL, its headers and its body. -/
theorem exists_request_iff_parts : (∃ made, request options environment draws scope step = .ok made) ↔
    (∃ url, Template.resolve (draws.part 0) scope step.url = .ok url ∧
      ∃ full, Request.resolveUrl environment.baseUrl url = .ok full) ∧
    (∃ filled, fillHeaders draws scope step.headers = .ok filled) ∧
    ∀ template ∈ step.body, ∃ text, Template.resolve (draws.part 1) scope template = .ok text := by
  unfold request
  cases Template.resolve (draws.part 0) scope step.url with
  | error => simp [Bind.bind, Except.bind, Except.mapError]
  | ok url =>
    cases resolved : Request.resolveUrl environment.baseUrl url with
    | error => simp [Bind.bind, Except.bind, Except.mapError, resolved]
    | ok full =>
      cases fillHeaders draws scope step.headers with
      | error => simp [Bind.bind, Except.bind, Except.mapError, resolved]
      | ok headers =>
        cases step.body with
        | none => simp [Bind.bind, Except.bind, Except.mapError, pure, Except.pure, resolved]
        | some template =>
          cases filled : Template.resolve (draws.part 1) scope template <;>
            simp [Bind.bind, Except.bind, Except.mapError, Except.map, pure, Except.pure, resolved, filled]

/-- A request can be made of a step just when all names in its templates are known and its URL is absolute or has a
base. -/
theorem exists_request_iff : (∃ made, request options environment draws scope step = .ok made) ↔
    ¬Unsendable environment draws scope step := by
  have names (template : String) (part : Template.Draws) : (∃ text, Template.resolve part scope template = .ok text) ↔
      ∀ name ∈ Template.names template, scope.Knows name := Template.exists_resolve_iff
  simp only [exists_request_iff_parts, exists_fillHeaders_iff, exists_resolveUrl_iff, names]
  unfold Unsendable Step.templates
  constructor
  · rintro ⟨⟨url, resolved, reachable⟩, headers, body⟩ (⟨template, member, name, named, unknown⟩ | relative)
    · rcases List.mem_cons.mp member with rfl | later
      · exact unknown ((names _ _).mp ⟨url, resolved⟩ name named)
      · rcases List.mem_append.mp later with inHeaders | inBody
        · exact unknown (headers template inHeaders name named)
        · exact unknown (body template (Option.mem_toList.mp inBody) name named)
    · obtain ⟨other, again, rest⟩ := relative
      obtain rfl : url = other := Except.ok.inj (resolved.symm.trans again)
      exact reachable rest
  · intro sendable
    rw [not_or] at sendable
    obtain ⟨known, reachable⟩ := sendable
    simp only [not_exists, not_and, not_not] at known
    obtain ⟨url, resolved⟩ := (names step.url (draws.part 0)).mpr (known _ List.mem_cons_self)
    refine ⟨⟨url, resolved, fun relative => reachable ⟨url, resolved, relative⟩⟩, fun template member => ?_,
      fun template member => ?_⟩
    · exact known template (List.mem_cons_of_mem _ (List.mem_append_left _ member))
    · exact known template (List.mem_cons_of_mem _ (List.mem_append_right _ (Option.mem_toList.mpr member)))

/-- What came of sending a request behind earlier ones: every attempt before the last one was a network error, and the
last one gave the outcome. A network error is the outcome only when there was no retry left. -/
structure Attempted (executor : Executor) (limit : Nat) (earlier : List Request) (made : Request) (retries : Nat)
    (outcome : Outcome) : Prop where
  within : retries ≤ limit
  failed : ∀ attempt < retries, ∃ served error,
    executor (earlier ++ List.replicate attempt made) made = some served ∧ served.outcome = .error error
  last : ∃ served, executor (earlier ++ List.replicate retries made) made = some served ∧ served.outcome = outcome
  exhausted : ∀ error, outcome = .error error → retries = limit

variable {limit retries : Nat} {earlier : List Request} {made : Request} {outcome : Outcome}

/-- Where nothing cancels the run, a network error is the outcome only when there was no retry left. -/
theorem Tried.attempted (tried : Tried executor limit earlier made retries outcome) (steady : executor.Steady) :
    Attempted executor limit earlier made retries outcome := by
  obtain ⟨served, answer, gives, ends⟩ := tried.ended
  refine ⟨tried.within, fun attempt below => ?_, ⟨served, answer, gives⟩, fun error failure => ?_⟩
  · obtain ⟨served, error, answer, failure, -⟩ := tried.failed attempt below
    exact ⟨served, error, answer, failure⟩
  · rcases ends with cancels | ⟨reply, response⟩ | spent
    · cases (steady _ _ _ answer).symm.trans cancels
    · cases failure.symm.trans response
    · exact spent

/-- A request that nothing cancels is sent until it is answered or no retry is left. -/
theorem exists_attempted (steady : executor.Steady) {limits : StepOptions} {attempt elapsed left : Nat}
    {world final : World Unit} {notes : List Note} {sent : Sent} (calm : world.canceled = false)
    (runs : Runs executor (send limits made attempt elapsed left) world notes sent final) :
    ∃ retries, Attempted executor left world.requests made retries sent.outcome ∧
      final.requests = world.requests ++ List.replicate (retries + 1) made := by
  obtain ⟨retries, tried, calls, -⟩ := exists_tried calm runs
  refine ⟨retries, tried.attempted steady, ?_⟩
  simp [World.requests, calls, Function.comp_def]

end Engine
end Runbook

import Mathlib.Data.List.Forall2

/-!
Computations that may fail: one after another, and passes over lists that check or change every element.
-/

namespace Runbook

/-- A computation that may fail succeeds followed by another one exactly when both do. -/
theorem bind_eq_ok_iff {α β ε : Type} {first : Except ε α} {next : α → Except ε β} {result : β} :
    (first >>= next) = .ok result ↔ ∃ value, first = .ok value ∧ next value = .ok result := by
  cases first <;> simp [bind, Except.bind]

theorem mapError_eq_ok_iff {α ε δ : Type} {f : ε → δ} {computation : Except ε α} {result : α} :
    computation.mapError f = .ok result ↔ computation = .ok result := by
  cases computation with
  | error => exact ⟨nofun, nofun⟩
  | ok =>
    constructor <;> rintro ⟨⟩ <;> rfl

/-- A computation followed by another one fails as the first of the two that fails. -/
theorem bind_eq_error_iff {α β ε : Type} {first : Except ε α} {next : α → Except ε β} {error : ε} :
    (first >>= next) = .error error ↔
      first = .error error ∨ ∃ value, first = .ok value ∧ next value = .error error := by
  cases first <;> simp [bind, Except.bind]

theorem mapError_eq_error_iff {α ε δ : Type} {f : ε → δ} {computation : Except ε α} {error : δ} :
    computation.mapError f = .error error ↔ ∃ fault, computation = .error fault ∧ f fault = error := by
  cases computation with
  | ok value =>
    refine ⟨nofun, ?_⟩
    rintro ⟨fault, ⟨⟩, -⟩
  | error fault =>
    constructor
    · rintro ⟨⟩
      exact ⟨fault, rfl, rfl⟩
    · rintro ⟨_, ⟨⟩, rfl⟩
      rfl

/-- A check of every element passes where each check does. -/
theorem forM_eq_ok {α ε : Type} {check : α → Except ε Unit} {elements : List α}
    (passes : ∀ element ∈ elements, check element = .ok ()) : elements.forM check = .ok () := by
  induction elements with
  | nil => rfl
  | cons element rest ih =>
    show (check element >>= fun _ => rest.forM check) = .ok ()
    rw [passes element List.mem_cons_self]
    exact ih fun other member => passes other (List.mem_cons_of_mem _ member)

/-- A pass over a list depends on what it does to the elements of the list. -/
theorem mapM_congr {m : Type → Type} [Monad m] [LawfulMonad m] {α β : Type} {f g : α → m β} {elements : List α}
    (same : ∀ element ∈ elements, f element = g element) : elements.mapM f = elements.mapM g := by
  induction elements with
  | nil => rfl
  | cons element rest ih =>
    rw [List.mapM_cons, List.mapM_cons, same element List.mem_cons_self,
      ih fun other member => same other (List.mem_cons_of_mem _ member)]

/-- A traversal that may fail succeeds exactly when every element does. -/
theorem mapM_eq_ok_iff {α β ε : Type} {f : α → Except ε β} {elements : List α} {results : List β} :
    elements.mapM f = .ok results ↔ List.Forall₂ (fun element result => f element = .ok result) elements results := by
  induction elements generalizing results with
  | nil => simp [pure, Except.pure, eq_comm]
  | cons element rest ih =>
    rw [List.mapM_cons, List.forall₂_cons_left_iff]
    simp only [← ih]
    cases f element with
    | error error => simp [bind, Except.bind]
    | ok result =>
      cases rest.mapM f with
      | error error => simp [bind, Except.bind]
      | ok tail => simp [bind, Except.bind, pure, Except.pure, eq_comm]

/-- A pass over a list fails as the first element that fails. -/
theorem mapM_eq_error_iff {α β ε : Type} {f : α → Except ε β} {elements : List α} {error : ε} :
    elements.mapM f = .error error ↔ ∃ before element after, elements = before ++ element :: after ∧
      (∀ other ∈ before, ∃ result, f other = .ok result) ∧ f element = .error error := by
  induction elements with
  | nil =>
    refine ⟨nofun, ?_⟩
    rintro ⟨before, element, after, split, -⟩
    cases before <;> cases split
  | cons first rest ih =>
    have same : (first :: rest).mapM f = .error error ↔
        f first = .error error ∨ ∃ result, f first = .ok result ∧ rest.mapM f = .error error := by
      simp [List.mapM_cons, bind_eq_error_iff, pure, Except.pure]
    rw [same, ih]
    constructor
    · rintro (failed | ⟨result, passed, before, element, after, rfl, earlier, failed⟩)
      · exact ⟨[], first, rest, rfl, nofun, failed⟩
      · exact ⟨first :: before, element, after, rfl, List.forall_mem_cons.mpr ⟨⟨result, passed⟩, earlier⟩, failed⟩
    · rintro ⟨before, element, after, split, earlier, failed⟩
      cases before with
      | nil =>
        obtain ⟨rfl, rfl⟩ := List.cons.inj split
        exact .inl failed
      | cons head before =>
        obtain ⟨rfl, rfl⟩ := List.cons.inj split
        obtain ⟨⟨result, passed⟩, others⟩ := List.forall_mem_cons.mp earlier
        exact .inr ⟨result, passed, before, element, after, rfl, others, failed⟩

/-- A fold that fails does so at one of the elements. -/
theorem exists_of_foldlM_eq_error {α σ ε : Type} {f : σ → α → Except ε σ} {start : σ} {elements : List α} {error : ε}
    (failed : elements.foldlM f start = .error error) :
    ∃ element ∈ elements, ∃ state, f state element = .error error := by
  induction elements generalizing start with
  | nil => cases failed
  | cons first rest ih =>
    rw [List.foldlM_cons, bind_eq_error_iff] at failed
    rcases failed with here | ⟨next, -, later⟩
    · exact ⟨first, List.mem_cons_self, start, here⟩
    · obtain ⟨element, member, state, there⟩ := ih later
      exact ⟨element, List.mem_cons_of_mem _ member, state, there⟩

/-- What is read of the writing of each element is read of all of them together. -/
theorem mapM_map_eq_pure {m : Type → Type} [Monad m] [LawfulMonad m] {α β γ : Type} {read : β → m γ} {write : α → β}
    {value : α → γ} {elements : List α} (reads : ∀ element ∈ elements, read (write element) = pure (value element)) :
    (elements.map write).mapM read = pure (elements.map value) := by
  induction elements with
  | nil => rfl
  | cons element rest ih =>
    rw [List.map_cons, List.mapM_cons, reads element List.mem_cons_self,
      ih fun other member => reads other (List.mem_cons_of_mem _ member), pure_bind, pure_bind]
    rfl

theorem mapM_map_eq_some {α β γ : Type} {read : β → Option γ} {write : α → β} {value : α → γ} {elements : List α}
    (reads : ∀ element ∈ elements, read (write element) = some (value element)) :
    (elements.map write).mapM read = some (elements.map value) :=
  mapM_map_eq_pure reads

/-- Readings in another order give what they give in that order. -/
theorem exists_mapM_of_perm {α β : Type} {read : α → Option β} {first second : List α} (perm : first.Perm second)
    {results : List β} (reads : second.mapM read = some results) :
    ∃ others, first.mapM read = some others ∧ others.Perm results := by
  induction perm generalizing results with
  | nil => exact ⟨results, reads, .refl results⟩
  | cons element perm ih =>
    simp only [List.mapM_cons, Option.bind_eq_bind, Option.bind_eq_some_iff] at reads
    obtain ⟨value, given, values, rest, whole⟩ := reads
    cases whole
    obtain ⟨others, found, same⟩ := ih rest
    refine ⟨value :: others, ?_, same.cons value⟩
    simp only [List.mapM_cons, given, found]
    rfl
  | swap element next rest =>
    simp only [List.mapM_cons, Option.bind_eq_bind, Option.bind_eq_some_iff] at reads
    obtain ⟨value, given, values, ⟨another, found, others, later, inside⟩, whole⟩ := reads
    cases inside
    cases whole
    refine ⟨another :: value :: others, ?_, .swap value another others⟩
    simp only [List.mapM_cons, given, found, later]
    rfl
  | trans _ _ before behind =>
    obtain ⟨middle, found, same⟩ := behind reads
    obtain ⟨others, given, order⟩ := before found
    exact ⟨others, given, order.trans same⟩

end Runbook

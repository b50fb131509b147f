import Runbook.History.Replay
import Runbook.Proofs.Exchange.Headers

/-!
Headers with some of them given other values. Overrides come one after another, and each takes the place of every header
of its name in any case, also of the overrides before it; so of the overrides of one name the last is left, and of the
headers those that have the name of no override.
-/

namespace Runbook

namespace History

open Runbook.Text

variable {headers overrides rest : Dict String} {name : String} {header override : String × String}

/-- The overrides with no other one of the same name behind them. -/
def lasting : Dict String → Dict String
  | [] => []
  | override :: rest =>
    if rest.any fun other => sameName override.1 other.1 then lasting rest else override :: lasting rest

/-- The headers that have the name of no override. -/
def untouched (overrides headers : Dict String) : Dict String :=
  headers.filter fun header => !overrides.any fun override => sameName header.1 override.1

theorem mem_untouched_iff : header ∈ untouched overrides headers ↔
    header ∈ headers ∧ ∀ override ∈ overrides, sameName header.1 override.1 = false := by
  simp [untouched]

theorem mem_of_mem_lasting (member : header ∈ lasting overrides) : header ∈ overrides := by
  induction overrides with
  | nil => exact member
  | cons override rest ih =>
    unfold lasting at member
    split at member
    · exact List.mem_cons_of_mem _ (ih member)
    · exact List.mem_cons.mpr ((List.mem_cons.mp member).imp_right ih)

/-- One override of each name is left. -/
theorem exists_lasting (named : ∃ override ∈ overrides, sameName override.1 name = true) :
    ∃ header, (lasting overrides).filter (fun other => sameName other.1 name) = [header] := by
  induction overrides with
  | nil =>
    obtain ⟨_, none, -⟩ := named
    cases none
  | cons first rest ih =>
    by_cases behind : ∃ other ∈ rest, sameName other.1 name = true
    · -- If the first override has the name, one behind it has that too, and it is left out.
      obtain ⟨header, left⟩ := ih behind
      obtain ⟨other, inside, sameOther⟩ := behind
      refine ⟨header, ?_⟩
      unfold lasting
      split
      · exact left
      · next apart =>
        rw [List.filter_cons_of_neg, left]
        intro sameFirst
        refine apart (List.any_eq_true.mpr ⟨other, inside, ?_⟩)
        rwa [sameName_congr sameFirst, sameName_comm]
    · have own : sameName first.1 name = true := by
        obtain ⟨override, member, same⟩ := named
        rcases List.mem_cons.mp member with rfl | inside
        · exact same
        · exact absurd ⟨override, inside, same⟩ behind
      have apart : rest.any (fun other => sameName first.1 other.1) = false := by
        refine List.any_eq_false.mpr fun other inside same => behind ⟨other, inside, ?_⟩
        rwa [sameName_comm, ← sameName_congr own]
      have none : (lasting rest).filter (fun other => sameName other.1 name) = [] :=
        List.filter_eq_nil_iff.mpr fun other inside same => behind ⟨other, mem_of_mem_lasting inside, same⟩
      refine ⟨first, ?_⟩
      rw [lasting, apart, if_neg Bool.false_ne_true, List.filter_cons, none]
      exact if_pos own

/-- What an override leaves of the headers, and the override, are left by the others as they would leave them. -/
theorem untouched_insert (override : String × String) (rest headers : Dict String) :
    (untouched rest (Dict.insert override.1 override.2
        (headers.filter fun header => !sameName header.1 override.1))).Perm
      (untouched rest [override] ++ untouched (override :: rest) headers) := by
  have fresh : override.1 ∉ (headers.filter fun header => !sameName header.1 override.1).map Prod.fst := by
    intro member
    obtain ⟨header, inside, same⟩ := List.mem_map.mp member
    have apart := (List.mem_filter.mp inside).2
    rw [same, sameName_self] at apart
    cases apart
  have both : untouched rest (headers.filter fun header => !sameName header.1 override.1) =
      untouched (override :: rest) headers := by
    unfold untouched
    rw [List.filter_filter]
    refine List.filter_congr fun header _ => ?_
    rw [List.any_cons, Bool.not_or, Bool.and_comm]
  rw [← both, untouched, untouched, untouched, ← List.filter_append]
  exact (Dict.insert_perm fresh override.2).filter _

/-- Headers with overrides are those that have the name of no override, and the last override of each name. -/
theorem overrideHeaders_perm (headers overrides : Dict String) :
    (overrideHeaders headers overrides).Perm (lasting overrides ++ untouched overrides headers) := by
  induction overrides generalizing headers with
  | nil =>
    have all : untouched [] headers = headers := List.filter_eq_self.mpr fun _ _ => rfl
    rw [all]
    exact .refl _
  | cons override rest ih =>
    refine (ih _).trans (((untouched_insert override rest headers).append_left _).trans ?_)
    rw [← List.append_assoc]
    refine List.Perm.append_right _ ?_
    cases behind : rest.any fun other => sameName override.1 other.1 with
    | true => simp [lasting, untouched, behind]
    | false => simp [lasting, untouched, behind]

theorem sorted_overrideHeaders (sorted : headers.Sorted) (overrides : Dict String) :
    (overrideHeaders headers overrides).Sorted := by
  induction overrides generalizing headers with
  | nil => exact sorted
  | cons override rest ih => exact ih (Dict.Sorted.insert (List.Pairwise.filter _ sorted) _ _)

/-- What is sent in place of headers with overrides: one header for each name of an override, in any case, which is an
override itself; the headers that have the name of no override; and nothing else. -/
structure Overridden (headers overrides sent : Dict String) : Prop where
  sorted : sent.Sorted
  replaced : ∀ override ∈ overrides, ∃ header ∈ overrides,
    sent.filter (fun other => sameName other.1 override.1) = [header]
  kept : ∀ header ∈ headers, (∀ override ∈ overrides, sameName header.1 override.1 = false) → header ∈ sent
  known : ∀ header ∈ sent, header ∈ overrides ∨
    header ∈ headers ∧ ∀ override ∈ overrides, sameName header.1 override.1 = false

theorem overridden_overrideHeaders (sorted : headers.Sorted) (overrides : Dict String) :
    Overridden headers overrides (overrideHeaders headers overrides) := by
  have perm := overrideHeaders_perm headers overrides
  refine ⟨sorted_overrideHeaders sorted overrides, fun override member => ?_, fun header held apart => ?_,
    fun header sent => ?_⟩
  · obtain ⟨header, left⟩ := exists_lasting ⟨override, member, sameName_self override.1⟩
    have inside : header ∈ lasting overrides := by
      have first : header ∈ (lasting overrides).filter fun other => sameName other.1 override.1 := by
        rw [left]
        exact List.mem_singleton_self header
      exact (List.mem_filter.mp first).1
    have none : (untouched overrides headers).filter (fun other => sameName other.1 override.1) = [] := by
      refine List.filter_eq_nil_iff.mpr fun other held same => ?_
      rw [(mem_untouched_iff.mp held).2 override member] at same
      cases same
    refine ⟨header, mem_of_mem_lasting inside, List.perm_singleton.mp ?_⟩
    have filtered := perm.filter fun other => sameName other.1 override.1
    rwa [List.filter_append, left, none, List.append_nil] at filtered
  · exact perm.mem_iff.mpr (List.mem_append_right _ (mem_untouched_iff.mpr ⟨held, apart⟩))
  · rcases List.mem_append.mp (perm.mem_iff.mp sent) with last | left
    · exact .inl (mem_of_mem_lasting last)
    · exact .inr (mem_untouched_iff.mp left)

/-- Two stored headers and an override give way to another override of their name. -/
example : overrideHeaders [("Accept", "a"), ("Host", "h"), ("accept", "b")] [("ACCEPT", "c"), ("aCCEPT", "d")] =
    [("Host", "h"), ("aCCEPT", "d")] := by decide +kernel

end History
end Runbook

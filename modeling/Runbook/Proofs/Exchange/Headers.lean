import Mathlib.Data.List.Pairwise
import Runbook.Exchange
import Runbook.Proofs.Dict

/-!
Headers with defaults. What is merged are the headers themselves, the defaults that they do not name, and a content type
for a body that has none. The defaults may come in any order: while they join the headers one after another, none of
them hides another one.
-/

namespace Runbook

namespace Text

variable {first second third : String}

theorem sameName_self (name : String) : sameName name name = true := beq_self_eq_true _

theorem sameName_comm (first second : String) : sameName first second = sameName second first := BEq.comm

/-- Names that are the same are the same as the same other names. -/
theorem sameName_congr (same : sameName first second = true) : sameName first third = sameName second third := by
  unfold sameName at same ⊢
  rw [eq_of_beq same]

theorem sameName_congr_right (same : sameName first second = true) : sameName third first = sameName third second := by
  rw [sameName_comm third, sameName_congr same, sameName_comm second]

end Text

namespace Request

open Runbook.Text

variable {headers own merged : Dict String} {defaults order : List (String × String)} {header : String × String}
  {name value : String} {hasBody : Bool}

/-! Names in any case -/

theorem hasName_eq_false_iff : hasName headers name = false ↔ ∀ header ∈ headers, sameName header.1 name = false := by
  simp [hasName, List.any_eq_false]

theorem hasName_append (first second : Dict String) (name : String) :
    hasName (first ++ second) name = (hasName first name || hasName second name) := List.any_append

theorem hasName_eq_of_perm (perm : headers.Perm own) (name : String) : hasName headers name = hasName own name :=
  perm.any_eq

theorem hasName_congr {first second : String} (same : sameName first second = true) (headers : Dict String) :
    hasName headers first = hasName headers second := by
  unfold hasName
  congr 1
  funext header
  exact sameName_congr_right same

/-- A name that is not there in any case is not there. -/
theorem notMem_keys (fresh : hasName headers name = false) : name ∉ headers.map Prod.fst := by
  intro member
  obtain ⟨header, inside, rfl⟩ := List.mem_map.mp member
  have apart := hasName_eq_false_iff.mp fresh header inside
  rw [sameName_self] at apart
  cases apart

/-- Headers of which no two have the same name. -/
def Distinct (headers : List (String × String)) : Prop :=
  headers.Pairwise fun first second => sameName first.1 second.1 = false

instance (headers : List (String × String)) : Decidable (Distinct headers) :=
  inferInstanceAs (Decidable (headers.Pairwise _))

theorem Distinct.perm (distinct : Distinct defaults) (perm : order.Perm defaults) : Distinct order :=
  (perm.pairwise_iff fun apart => by rwa [sameName_comm]).mpr distinct

/-! The defaults join the headers -/

/-- The defaults that the headers do not name. -/
def missing (own : Dict String) (defaults : List (String × String)) : List (String × String) :=
  defaults.filter fun header => !hasName own header.1

theorem mem_missing_iff :
    header ∈ missing own defaults ↔ header ∈ defaults ∧ ∀ other ∈ own, sameName other.1 header.1 = false := by
  simp [missing, hasName_eq_false_iff]

/-- A default that has joined the headers hides none of the others. -/
theorem missing_insert (fresh : hasName own header.1 = false)
    (apart : ∀ other ∈ defaults, sameName header.1 other.1 = false) :
    missing (own.insert header.1 header.2) defaults = missing own defaults := by
  refine List.filter_congr fun other member => ?_
  rw [hasName_eq_of_perm (Dict.insert_perm (notMem_keys fresh) header.2)]
  show (!(sameName header.1 other.1 || hasName own other.1)) = _
  rw [apart other member, Bool.false_or]

/-- Once all defaults have been seen, those are there that were missing at the start. -/
theorem foldl_addDefault_perm (own : Dict String) (distinct : Distinct defaults) :
    (defaults.foldl addDefault own).Perm (own ++ missing own defaults) := by
  induction defaults generalizing own with
  | nil => exact .of_eq (List.append_nil own).symm
  | cons header rest ih =>
    obtain ⟨apart, others⟩ := List.pairwise_cons.mp distinct
    rw [List.foldl_cons, addDefault]
    cases named : hasName own header.1 with
    | true =>
      have skipped : missing own (header :: rest) = missing own rest :=
        List.filter_cons_of_neg (by simp [named])
      rw [skipped]
      exact ih own others
    | false =>
      have joined : missing own (header :: rest) = header :: missing own rest :=
        List.filter_cons_of_pos (by simp [named])
      have added := Dict.insert_perm (notMem_keys named) header.2
      rw [joined, if_neg Bool.false_ne_true]
      calc (rest.foldl addDefault (own.insert header.1 header.2)).Perm _ := ih _ others
        List.Perm _ (header :: own ++ missing own rest) := by
          rw [missing_insert named apart]
          exact added.append_right _
        List.Perm _ (own ++ header :: missing own rest) := List.perm_middle.symm

theorem sorted_foldl_addDefault (sorted : own.Sorted) (defaults : List (String × String)) :
    (defaults.foldl addDefault own).Sorted := by
  induction defaults generalizing own with
  | nil => exact sorted
  | cons header rest ih =>
    rw [List.foldl_cons, addDefault]
    split
    · exact ih sorted
    · exact ih (sorted.insert header.1 header.2)

/-! The content type -/

theorem sameName_contentType : sameName "Content-Type" "content-type" = true := by decide +kernel

/-- The content type of a body, where neither the headers nor the defaults have one. -/
def impliedType (own : Dict String) (defaults : List (String × String)) (hasBody : Bool) : List (String × String) :=
  if hasBody && !hasName (own ++ defaults) "content-type" then [("Content-Type", "application/json")] else []

theorem mem_impliedType_iff : header ∈ impliedType own defaults hasBody ↔
    header = ("Content-Type", "application/json") ∧ hasBody = true ∧
      ∀ other ∈ own ++ defaults, sameName other.1 "content-type" = false := by
  unfold impliedType
  rw [← hasName_eq_false_iff]
  cases hasBody <;> cases hasName (own ++ defaults) "content-type" <;> simp

/-- The headers name something, with or without the defaults that they hide. -/
theorem hasName_missing (own : Dict String) (defaults : List (String × String)) (name : String) :
    hasName (own ++ missing own defaults) name = hasName (own ++ defaults) name := by
  rw [hasName_append, hasName_append]
  cases named : hasName own name with
  | true => rfl
  | false =>
    -- A default of that name is not hidden, since what hides it would have the name as well.
    have visible (header : String × String) (same : sameName header.1 name = true) :
        hasName own header.1 = false := by
      refine hasName_eq_false_iff.mpr fun other inside => ?_
      rw [sameName_congr_right same]
      exact hasName_eq_false_iff.mp named other inside
    rw [Bool.false_or, Bool.false_or, missing, hasName, hasName, List.any_filter]
    congr 1
    funext header
    cases same : sameName header.1 name with
    | false => rw [Bool.and_false]
    | true => rw [visible header same, Bool.not_false, Bool.and_true]

/-! What is merged -/

/-- What joins the headers. -/
def added (own : Dict String) (defaults : List (String × String)) (hasBody : Bool) : List (String × String) :=
  missing own defaults ++ impliedType own defaults hasBody

theorem mem_added_iff : header ∈ added own defaults hasBody ↔
    (header ∈ defaults ∧ ∀ other ∈ own, sameName other.1 header.1 = false) ∨
      (header = ("Content-Type", "application/json") ∧ hasBody = true ∧
        ∀ other ∈ own ++ defaults, sameName other.1 "content-type" = false) := by
  rw [added, List.mem_append, mem_missing_iff, mem_impliedType_iff]

/-- Nothing that joins the headers is named by them. -/
theorem apart_of_mem_added (member : header ∈ added own defaults hasBody) :
    ∀ other ∈ own, sameName other.1 header.1 = false := by
  intro other inside
  rcases mem_added_iff.mp member with ⟨-, apart⟩ | ⟨rfl, -, untyped⟩
  · exact apart other inside
  · rw [sameName_congr_right sameName_contentType]
    exact untyped other (List.mem_append_left defaults inside)

/-- No two headers that join the others have the same name. -/
theorem distinct_added (own : Dict String) (distinct : Distinct defaults) (hasBody : Bool) :
    Distinct (added own defaults hasBody) := by
  refine List.pairwise_append.mpr ⟨distinct.filter _, ?_, fun first inside second implied => ?_⟩
  · unfold impliedType
    split
    · exact List.pairwise_singleton _ _
    · exact .nil
  · obtain ⟨rfl, -, untyped⟩ := mem_impliedType_iff.mp implied
    rw [sameName_congr_right sameName_contentType]
    exact untyped first (List.mem_append_right own (mem_missing_iff.mp inside).1)

/-- Headers are merged with what joins them. -/
theorem mergeHeaders_perm (own : Dict String) (distinct : Distinct defaults) (hasBody : Bool) :
    (mergeHeaders defaults own hasBody).Perm (own ++ added own defaults hasBody) := by
  have joined := foldl_addDefault_perm own distinct
  have typed : hasName (defaults.foldl addDefault own) "content-type" = hasName (own ++ defaults) "content-type" := by
    rw [hasName_eq_of_perm joined, hasName_missing]
  unfold mergeHeaders added impliedType
  rw [← typed, ← List.append_assoc]
  dsimp only
  split
  · next untyped =>
    have free : hasName (defaults.foldl addDefault own) "Content-Type" = false := by
      rw [hasName_congr sameName_contentType]
      simpa using (Bool.and_eq_true_iff.mp untyped).2
    refine (Dict.insert_perm (notMem_keys free) _).trans ?_
    exact (joined.cons _).trans (List.perm_append_singleton _ _).symm
  · rw [List.append_nil]
    exact joined

theorem mem_mergeHeaders_iff (distinct : Distinct defaults) :
    header ∈ mergeHeaders defaults own hasBody ↔ header ∈ own ∨ header ∈ added own defaults hasBody := by
  rw [(mergeHeaders_perm own distinct hasBody).mem_iff, List.mem_append]

theorem sorted_mergeHeaders (sorted : own.Sorted) (defaults : List (String × String)) (hasBody : Bool) :
    (mergeHeaders defaults own hasBody).Sorted := by
  unfold mergeHeaders
  dsimp only
  split
  · exact (sorted_foldl_addDefault sorted defaults).insert _ _
  · exact sorted_foldl_addDefault sorted defaults

/-- The order of the defaults does not matter. -/
theorem mergeHeaders_eq_of_perm (sorted : own.Sorted) (distinct : Distinct defaults) (perm : order.Perm defaults)
    (hasBody : Bool) : mergeHeaders order own hasBody = mergeHeaders defaults own hasBody := by
  refine List.Perm.eq_of_pairwise (fun first second _ _ before after => absurd after (String.lt_asymm before))
    (sorted_mergeHeaders sorted order hasBody) (sorted_mergeHeaders sorted defaults hasBody) ?_
  have implied : impliedType own order hasBody = impliedType own defaults hasBody := by
    unfold impliedType
    rw [hasName_eq_of_perm (perm.append_left own)]
  calc (mergeHeaders order own hasBody).Perm _ := mergeHeaders_perm own (distinct.perm perm) hasBody
    List.Perm _ (own ++ added own defaults hasBody) := by
      rw [added, implied]
      exact ((perm.filter _).append_right _).append_left own
    List.Perm _ _ := (mergeHeaders_perm own distinct hasBody).symm

/-- Two headers that are merged and have the same name are headers from the start. -/
theorem mem_own_of_sameName (distinct : Distinct defaults) {first second : String × String}
    (here : first ∈ mergeHeaders defaults own hasBody) (there : second ∈ mergeHeaders defaults own hasBody)
    (same : sameName first.1 second.1 = true) : first = second ∨ first ∈ own ∧ second ∈ own := by
  rw [mem_mergeHeaders_iff distinct] at here there
  rcases here with own | joined
  · rcases there with also | other
    · exact .inr ⟨own, also⟩
    · rw [apart_of_mem_added other first own] at same
      cases same
  · rcases there with own | other
    · rw [sameName_comm, apart_of_mem_added joined second own] at same
      cases same
    · by_contra different
      have symmetric : Std.Symm fun first second : String × String => sameName first.1 second.1 = false :=
        ⟨fun _ _ apart => by rwa [sameName_comm]⟩
      have apart := List.Pairwise.forall (distinct_added own distinct hasBody) joined other fun equal =>
        different (.inl equal)
      rw [apart] at same
      cases same

/-- Headers with defaults of different names, a name being the same in any case. What is merged are the headers as they
are; each default that has the name of none of them; and the JSON content type exactly if there is a body and neither the
headers nor the defaults have a content type. It does not depend on the order in which the defaults come, and two headers
of one name are both headers from the start. -/
theorem mergeHeaders_exact (own : Dict String) (defaults : List (String × String)) (hasBody : Bool)
    (sorted : own.Sorted) (distinct : Distinct defaults) :
    let merged := mergeHeaders defaults own hasBody
    merged.Sorted ∧
      (∀ header, header ∈ merged ↔ header ∈ own ∨
        (header ∈ defaults ∧ ∀ other ∈ own, sameName other.1 header.1 = false) ∨
        (header = ("Content-Type", "application/json") ∧ hasBody = true ∧
          ∀ other ∈ own ++ defaults, sameName other.1 "content-type" = false)) ∧
      (∀ order, order.Perm defaults → mergeHeaders order own hasBody = merged) ∧
      (∀ first ∈ merged, ∀ second ∈ merged, sameName first.1 second.1 = true →
        first = second ∨ first ∈ own ∧ second ∈ own) := by
  intro merged
  refine ⟨sorted_mergeHeaders sorted defaults hasBody, fun header => ?_,
    fun order perm => mergeHeaders_eq_of_perm sorted distinct perm hasBody,
    fun first here second there same => mem_own_of_sameName distinct here there same⟩
  rw [← mem_added_iff]
  exact mem_mergeHeaders_iff distinct

/-- Two headers of one name stay, they hide a default, and another default has the content type of the body. -/
theorem greeting_merged :
    let own : Dict String := [("Accept", "a"), ("accept", "b")]
    let defaults := [("X-Client", "kest"), ("ACCEPT", "c"), ("content-TYPE", "text/plain")]
    own.Sorted ∧ Distinct defaults ∧
      mergeHeaders defaults own true =
        [("Accept", "a"), ("X-Client", "kest"), ("accept", "b"), ("content-TYPE", "text/plain")] ∧
      mergeHeaders defaults.reverse own true = mergeHeaders defaults own true ∧
      ("Content-Type", "application/json") ∉ mergeHeaders defaults own true := by
  intro own defaults
  have sorted : own.Sorted := by
    unfold Dict.Sorted
    decide +kernel
  have distinct : Distinct defaults := by decide +kernel
  obtain ⟨-, exact, unordered, -⟩ := mergeHeaders_exact own defaults true sorted distinct
  refine ⟨sorted, distinct, by decide +kernel, unordered _ (List.reverse_perm defaults), fun member => ?_⟩
  rw [exact] at member
  revert member
  decide +kernel

end Request
end Runbook

import Runbook.Exchange
import Runbook.Proofs.Text.Lines

/-!
The URL that a request goes to. A URL with a scheme stands for itself; any other one is joined to the base with one slash
between the two, whatever slashes they have there. A URL that has been joined to a base with a scheme has that scheme, so
joining it again does not change it.
-/

namespace Runbook.Request

open Runbook.Text

variable {base url : String} {front path text : List Char}

/-! Schemes -/

/-- A character that a scheme goes on with. -/
def isSchemeChar (c : Char) : Bool := isLetter c || isDigit c || c == '+' || c == '.' || c == '-'

/-- A scheme is a letter, and then letters, digits, plus signs, points and dashes. -/
def IsScheme (scheme : List Char) : Prop :=
  ∃ first rest, scheme = first :: rest ∧ isLetter first = true ∧ ∀ c ∈ rest, isSchemeChar c = true

/-- What stands between a scheme and the rest of a URL. -/
def schemeEnd : List Char := [':', '/', '/']

/-- A text starts with a scheme, a colon and two slashes. -/
def HasScheme (text : List Char) : Prop := ∃ scheme rest, IsScheme scheme ∧ text = scheme ++ schemeEnd ++ rest

theorem isAbsolute_iff : isAbsolute text = true ↔ HasScheme text := by
  cases text with
  | nil =>
    refine ⟨nofun, ?_⟩
    rintro ⟨_, rest, ⟨first, more, rfl, -⟩, whole⟩
    cases whole
  | cons first more =>
    rw [isAbsolute, Bool.and_eq_true, isSome_afterFront?_iff]
    constructor
    · rintro ⟨letter, rest, ends⟩
      refine ⟨first :: more.takeWhile isSchemeChar, rest, ⟨first, _, rfl, letter, fun _ => List.mem_takeWhile_imp⟩, ?_⟩
      have cut : more = more.takeWhile isSchemeChar ++ (schemeEnd ++ rest) := by
        conv_lhs => rw [← List.takeWhile_append_dropWhile (p := isSchemeChar) (l := more)]
        exact congrArg _ ends.symm
      rw [List.append_assoc, List.cons_append, ← cut]
    · rintro ⟨_, rest, ⟨_, run, rfl, letter, goesOn⟩, whole⟩
      rw [List.append_assoc, List.cons_append] at whole
      obtain ⟨rfl, rfl⟩ := List.cons.inj whole
      refine ⟨letter, rest, Eq.symm ?_⟩
      refine dropWhile_run goesOn fun c head => ?_
      cases head
      rfl

/-- A text that starts with a slash has no scheme. -/
theorem not_hasScheme_of_slash {rest : List Char} : ¬HasScheme ('/' :: rest) := by
  rw [← isAbsolute_iff]
  exact Bool.false_ne_true

theorem HasScheme.append (has : HasScheme text) (more : List Char) : HasScheme (text ++ more) := by
  obtain ⟨scheme, rest, isScheme, rfl⟩ := has
  exact ⟨scheme, rest ++ more, isScheme, List.append_assoc _ _ _⟩

/-! Slashes at the ends of a text -/

/-- Slashes in a row. -/
def slashes (count : Nat) : List Char := List.replicate count '/'

theorem dropFront_slashes (starts : path.head? ≠ some '/') (count : Nat) :
    dropFront isSlash (slashes count ++ path) = path := by
  refine dropWhile_run (fun c member => ?_) fun c head => ?_
  · rw [List.eq_of_mem_replicate member]
    rfl
  · exact beq_eq_false_iff_ne.mpr fun slash => starts (slash ▸ head)

theorem dropBack_slashes (ends : front.getLast? ≠ some '/') (count : Nat) :
    dropBack isSlash (front ++ slashes count) = front := by
  have dropped : dropFront isSlash (slashes count ++ front.reverse) = front.reverse :=
    dropFront_slashes (by rwa [List.head?_reverse]) count
  rw [dropBack_eq_rdropWhile, List.rdropWhile, List.reverse_append, slashes, List.reverse_replicate]
  exact List.reverse_eq_iff.mpr dropped

theorem exists_front (text : List Char) : ∃ path count, text = slashes count ++ path ∧ path.head? ≠ some '/' := by
  obtain ⟨run, goesOn, stops, whole⟩ := exists_run isSlash text
  refine ⟨text.dropWhile isSlash, run.length, ?_, fun slash => ?_⟩
  · rw [slashes, ← List.eq_replicate_of_mem fun c member => eq_of_beq (goesOn c member)]
    exact whole
  · cases stops '/' slash

theorem exists_back (text : List Char) : ∃ front count, text = front ++ slashes count ∧ front.getLast? ≠ some '/' := by
  obtain ⟨path, count, whole, starts⟩ := exists_front text.reverse
  refine ⟨path.reverse, count, ?_, by rwa [List.getLast?_reverse]⟩
  rw [← List.reverse_reverse text, whole, List.reverse_append, slashes, List.reverse_replicate]

/-! Joining -/

/-- A text and a path with one slash between them, unless there is no path. -/
def withPath (front path : List Char) : List Char := if path.isEmpty then front else front ++ '/' :: path

/-- The base without slashes at its end, the URL without slashes at its front, and one slash between the two. -/
def Joins (base url joined : String) : Prop :=
  ∃ front path behind before, base.toList = front ++ slashes behind ∧ front.getLast? ≠ some '/' ∧
    url.toList = slashes before ++ path ∧ path.head? ≠ some '/' ∧ joined.toList = withPath front path

theorem resolveUrl_of_hasScheme (absolute : HasScheme url.toList) (base : Option String) :
    resolveUrl base url = .ok url := by
  unfold resolveUrl
  rw [if_pos (isAbsolute_iff.mpr absolute)]

theorem resolveUrl_none (relative : ¬HasScheme url.toList) :
    resolveUrl none url =
      .error { cause := "relative URL '" ++ url ++ "' but the environment has no base_url" } := by
  unfold resolveUrl
  rw [if_neg fun absolute => relative (isAbsolute_iff.mp absolute)]

theorem resolveUrl_some (relative : ¬HasScheme url.toList) {behind before : Nat}
    (root : base.toList = front ++ slashes behind) (ends : front.getLast? ≠ some '/')
    (target : url.toList = slashes before ++ path) (starts : path.head? ≠ some '/') :
    resolveUrl (some base) url = .ok (String.ofList (withPath front path)) := by
  unfold resolveUrl withPath
  rw [if_neg fun absolute => relative (isAbsolute_iff.mp absolute)]
  dsimp only
  rw [root, target, dropFront_slashes starts, dropBack_slashes ends]
  cases path with
  | nil => rfl
  | cons c rest =>
    apply congrArg Except.ok
    apply String.toList_injective
    simp

/-- A relative URL and a base are joined. -/
theorem exists_joins (base : String) (relative : ¬HasScheme url.toList) :
    ∃ joined, resolveUrl (some base) url = .ok joined ∧ Joins base url joined := by
  obtain ⟨front, behind, root, ends⟩ := exists_back base.toList
  obtain ⟨path, before, target, starts⟩ := exists_front url.toList
  exact ⟨_, resolveUrl_some relative root ends target starts, front, path, behind, before, root, ends, target, starts,
    String.toList_ofList⟩

/-- Slashes at the end of the base and at the front of a relative URL make no difference. -/
theorem resolveUrl_slashes (base : String) (relative : ¬HasScheme url.toList) (starts : url.toList.head? ≠ some '/')
    (behind before : Nat) :
    resolveUrl (some (base ++ String.ofList (slashes behind))) (String.ofList (slashes before) ++ url) =
      resolveUrl (some base) url := by
  obtain ⟨front, held, root, ends⟩ := exists_back base.toList
  have still : ¬HasScheme (String.ofList (slashes before) ++ url).toList := by
    rw [String.toList_append, String.toList_ofList]
    cases before with
    | zero => exact relative
    | succ before => exact not_hasScheme_of_slash
  have longer : (base ++ String.ofList (slashes behind)).toList = front ++ slashes (held + behind) := by
    rw [String.toList_append, String.toList_ofList, root, List.append_assoc, slashes, slashes, slashes,
      List.replicate_append_replicate]
  have moved : (String.ofList (slashes before) ++ url).toList = slashes before ++ url.toList := by
    rw [String.toList_append, String.toList_ofList]
  have target : url.toList = slashes 0 ++ url.toList := (List.nil_append _).symm
  rw [resolveUrl_some still longer ends moved starts, resolveUrl_some relative root ends target starts]

/-- A base that is more than a scheme and slashes. -/
def IsRooted (base : String) : Prop :=
  ∃ scheme rest, IsScheme scheme ∧ base.toList = scheme ++ schemeEnd ++ rest ∧ ∃ c ∈ rest, c ≠ '/'

/-- Such a base keeps its scheme when the slashes at its end are dropped. -/
theorem IsRooted.hasScheme (rooted : IsRooted base) {count : Nat} (root : base.toList = front ++ slashes count)
    (ends : front.getLast? ≠ some '/') : HasScheme front := by
  obtain ⟨scheme, rest, isScheme, whole, c, member, other⟩ := rooted
  obtain ⟨before, behind, rfl⟩ := List.append_of_mem member
  refine ⟨scheme, before ++ c :: behind.rdropWhile isSlash, isScheme, ?_⟩
  have kept : isSlash c = false := beq_eq_false_iff_ne.mpr other
  calc front = dropBack isSlash base.toList := by rw [root, dropBack_slashes ends]
    _ = (scheme ++ schemeEnd ++ before ++ c :: behind).rdropWhile isSlash := by
      rw [whole, dropBack_eq_rdropWhile, List.append_assoc (scheme ++ schemeEnd)]
    _ = scheme ++ schemeEnd ++ (before ++ c :: behind.rdropWhile isSlash) := by
      rw [rdropWhile_append_cons kept, List.append_assoc (scheme ++ schemeEnd)]

/-- What is joined to such a base has a scheme. -/
theorem Joins.hasScheme {joined : String} (joins : Joins base url joined) (rooted : IsRooted base) :
    HasScheme joined.toList := by
  obtain ⟨front, path, behind, before, root, ends, -, -, whole⟩ := joins
  have has := rooted.hasScheme root ends
  rw [whole, withPath]
  split
  · exact has
  · exact has.append _

theorem resolveUrl_again (url : String) (rooted : IsRooted base) :
    ∃ result, resolveUrl (some base) url = .ok result ∧ resolveUrl (some base) result = .ok result := by
  by_cases absolute : HasScheme url.toList
  · have same := resolveUrl_of_hasScheme absolute (some base)
    exact ⟨url, same, same⟩
  · obtain ⟨joined, resolved, joins⟩ := exists_joins base absolute
    exact ⟨joined, resolved, resolveUrl_of_hasScheme (joins.hasScheme rooted) (some base)⟩

/-- Where requests go. A URL with a scheme stands for itself with any base and without one. A URL without a scheme needs a
base, and then it is what follows the base: with one slash between the two, unless it has nothing but slashes. So slashes
at the end of the base, and at the front of a URL without any, make no difference; and where the base has a scheme and
more than slashes behind it, what comes out is not changed by the same base again. -/
theorem resolveUrl_joins (base url : String) :
    (HasScheme url.toList → ∀ base : Option String, resolveUrl base url = .ok url) ∧
      (¬HasScheme url.toList →
        (∃ error, resolveUrl none url = .error error) ∧
        (∃ joined, resolveUrl (some base) url = .ok joined ∧ Joins base url joined) ∧
        (url.toList.head? ≠ some '/' → ∀ behind before : Nat,
          resolveUrl (some (base ++ String.ofList (slashes behind))) (String.ofList (slashes before) ++ url) =
            resolveUrl (some base) url)) ∧
      (IsRooted base → ∃ result, resolveUrl (some base) url = .ok result ∧
        resolveUrl (some base) result = .ok result) :=
  ⟨resolveUrl_of_hasScheme,
    fun relative => ⟨⟨_, resolveUrl_none relative⟩, exists_joins base relative, resolveUrl_slashes base relative⟩,
    resolveUrl_again url⟩

/-- A scheme in a query does not count, and the slashes between the base and the path are one. -/
theorem login_joined :
    let base := "http://host//"
    let url := "login?next=ftp://other"
    ¬HasScheme url.toList ∧ IsRooted base ∧ resolveUrl none url ≠ .ok url ∧
      resolveUrl (some "http://host") url = .ok "http://host/login?next=ftp://other" ∧
      resolveUrl (some (base ++ "/")) ("//" ++ url) = .ok "http://host/login?next=ftp://other" ∧
      resolveUrl (some base) "http://host/login?next=ftp://other" = .ok "http://host/login?next=ftp://other" := by
  intro base url
  have relative : ¬HasScheme url.toList := by
    rw [← isAbsolute_iff]
    decide +kernel
  have scheme : IsScheme ['h', 't', 't', 'p'] := ⟨'h', _, rfl, by decide, List.all_eq_true.mp (by decide)⟩
  have rooted : IsRooted base :=
    ⟨_, "host//".toList, scheme, by decide +kernel, 'h', by decide +kernel, by decide⟩
  obtain ⟨-, joins, again⟩ := resolveUrl_joins base url
  obtain ⟨⟨error, fails⟩, -, slashed⟩ := joins relative
  have plain : resolveUrl (some base) url = .ok "http://host/login?next=ftp://other" := by decide +kernel
  obtain ⟨result, resolved, kept⟩ := again rooted
  obtain rfl := Except.ok.inj (resolved.symm.trans plain)
  exact ⟨relative, rooted, by simp [fails], by decide +kernel, (slashed (by decide +kernel) 1 2).trans plain, kept⟩

end Runbook.Request

import Mathlib.Data.List.Chain
import Runbook.Proofs.Text.Decimal
import Runbook.Proofs.Text.Lines
import Runbook.Scenario.Slug

/-!
Slugs have one form. The slug of a name is made of the words that stand between the separators of the name, with one
underscore between each two of them; a word is what is left of a run when its letters and digits are kept, in lower
case. A text of this form is its own slug.
-/

namespace Runbook

open Runbook.Text

variable {c : Char}

/-! Case in ASCII -/

theorem Text.isUpper_eq (c : Char) : isUpper c = c.isUpper := (Bool.decide_and ('A' ≤ c) (c ≤ 'Z')).symm

theorem Text.toNat_toLower (upper : c.isUpper = true) : c.toLower.toNat = c.toNat + 32 := by
  have within : c.val ≥ 'A'.val ∧ c.val ≤ 'Z'.val := of_decide_eq_true upper
  have low : c.val.toNat ≤ 90 := UInt32.le_iff_toNat_le.mp within.2
  have fits : c.val.toNat + 32 < 2 ^ 32 := by omega
  have raised : c.toLower.val = c.val + 32 := congrArg Char.val (dif_pos within)
  rw [← Char.toNat_val, raised, UInt32.toNat_add]
  exact Nat.mod_eq_of_lt fits

theorem Text.toLower_eq_self (other : c.isUpper = false) : c.toLower = c := dif_neg (of_decide_eq_false other)

theorem Text.lowerChar_eq (c : Char) : lowerChar c = c.toLower := by
  rw [lowerChar, isUpper_eq]
  split
  · next upper => rw [← toNat_toLower upper, Char.ofNat_toNat]
  · next other => rw [toLower_eq_self (eq_false_of_ne_true other)]

namespace Slug

variable {text front back run : List Char}

/-! The characters of a name -/

theorem isKept_eq (c : Char) : isKept c = c.isAlphanum := by
  have letter : isLetter c = c.isAlpha := by
    rw [isLetter, isUpper_eq, Bool.or_comm]
    rfl
  rw [isKept, letter]
  rfl

theorem isKept_iff : isKept c = true ↔
    (97 ≤ c.toNat ∧ c.toNat ≤ 122) ∨ (65 ≤ c.toNat ∧ c.toNat ≤ 90) ∨ (48 ≤ c.toNat ∧ c.toNat ≤ 57) := by
  rw [isKept, Bool.or_eq_true, isLetter_iff, isDigit_iff, or_assoc]

theorem isSeparator_eq (c : Char) : isSeparator c = (isBlank c || c ∈ ['-', '_', '.']) := by
  simp [isSeparator, Bool.or_assoc, Bool.beq_eq_decide_eq]

/-- What separates words is not kept. -/
theorem isKept_eq_false_of_isSeparator (separates : isSeparator c = true) : isKept c = false := by
  refine eq_false_of_ne_true fun kept => ?_
  rw [isKept_iff] at kept
  simp only [isSeparator, isBlank, Bool.or_eq_true, Bool.and_eq_true, decide_eq_true_eq, beq_iff_eq] at separates
  rcases separates with ((blank | rfl) | rfl) | rfl
  · omega
  all_goals exact absurd kept (by decide)

/-- A character of a word in a slug: a letter in lower case or a digit. -/
def isWordChar (c : Char) : Bool := c.isLower || c.isDigit

theorem isWordChar_iff : isWordChar c = true ↔ (97 ≤ c.toNat ∧ c.toNat ≤ 122) ∨ (48 ≤ c.toNat ∧ c.toNat ≤ 57) := by
  have same : isWordChar c = (isLower c || isDigit c) := rfl
  simp only [same, Bool.or_eq_true, isDigit_iff, isLower, Bool.and_eq_true, decide_eq_true_eq, Char.le_def,
    UInt32.le_iff_toNat_le]
  rfl

theorem isWordChar_toLower (kept : c.isAlphanum = true) : isWordChar c.toLower = true := by
  rw [← isKept_eq, isKept_iff] at kept
  rw [isWordChar_iff]
  by_cases upper : c.isUpper = true
  · have raised := toNat_toLower upper
    rw [← isUpper_eq, isUpper_iff] at upper
    omega
  · have same := toLower_eq_self (eq_false_of_ne_true upper)
    rw [← isUpper_eq, isUpper_iff] at upper
    rw [same]
    omega

theorem isKept_of_isWordChar (inside : isWordChar c = true) : isKept c = true := by
  rw [isWordChar_iff] at inside
  rw [isKept_iff]
  omega

theorem toLower_of_isWordChar (inside : isWordChar c = true) : c.toLower = c := by
  refine toLower_eq_self (eq_false_of_ne_true fun upper => ?_)
  rw [isWordChar_iff] at inside
  rw [← isUpper_eq, isUpper_iff] at upper
  omega

/-! The words of a name -/

/-- What is left of a run of characters: its ASCII letters and digits, in lower case. -/
def wordOf (run : List Char) : List Char := (run.filter Char.isAlphanum).map Char.toLower

/-- The words of a name, in their order. The name is cut at white space, hyphens, underscores and full stops; each run
between them is a word, unless nothing is left of it. -/
def wordsOf (name : List Char) : List (List Char) :=
  ((name.splitOnP fun c => isBlank c || c ∈ ['-', '_', '.']).map wordOf).filter (!·.isEmpty)

theorem wordOf_eq_self (inside : ∀ c ∈ run, isWordChar c = true) : wordOf run = run := by
  have kept : run.filter Char.isAlphanum = run :=
    List.filter_eq_self.mpr fun c member => isKept_eq c ▸ isKept_of_isWordChar (inside c member)
  rw [wordOf, kept, List.map_congr_left fun c member => toLower_of_isWordChar (inside c member), List.map_id']

theorem isWord_of_mem_wordsOf {name word : List Char} (member : word ∈ wordsOf name) :
    word ≠ [] ∧ ∀ c ∈ word, isWordChar c = true := by
  obtain ⟨inside, filled⟩ := List.mem_filter.mp member
  obtain ⟨run, -, rfl⟩ := List.mem_map.mp inside
  refine ⟨by simpa using filled, fun c written => ?_⟩
  obtain ⟨d, kept, rfl⟩ := List.mem_map.mp written
  exact isWordChar_toLower (List.mem_filter.mp kept).2

/-- A name without separators holds one word at most. -/
theorem wordsOf_of_run (whole : ∀ c ∈ run, isSeparator c = false) : wordsOf run = [wordOf run].filter (!·.isEmpty) := by
  rw [wordsOf, List.splitOnP_eq_singleton fun c member => isSeparator_eq c ▸ whole c member]
  rfl

/-- A separator parts the words before it from those behind it. -/
theorem wordsOf_append (front back : List Char) (separates : isSeparator c = true) :
    wordsOf (front ++ c :: back) = wordsOf front ++ wordsOf back := by
  rw [isSeparator_eq] at separates
  rw [wordsOf, List.splitOnP_append_cons front back separates, List.map_append, List.filter_append]
  rfl

/-- A name is a run without separators, or such a run with a separator and another name behind it. -/
@[elab_as_elim] theorem runs_induction {motive : List Char → Prop} (name : List Char)
    (last : ∀ run, (∀ c ∈ run, isSeparator c = false) → motive run)
    (more : ∀ run c rest, (∀ d ∈ run, isSeparator d = false) → isSeparator c = true → motive rest →
      motive (run ++ c :: rest)) : motive name := by
  -- The run grows at its end while it is read, so what has been read of it stands before the name.
  have read (run : List Char) (whole : ∀ c ∈ run, isSeparator c = false) : motive (run ++ name) := by
    induction name generalizing run with
    | nil => simpa using last run whole
    | cons c rest ih =>
      cases kind : isSeparator c with
      | true => exact more run c rest whole kind (ih [] (by simp))
      | false =>
        have longer : ∀ d ∈ run ++ [c], isSeparator d = false := by
          intro d member
          rcases List.mem_append.mp member with early | late
          · exact whole d early
          · exact List.mem_singleton.mp late ▸ kind
        simpa using ih (run ++ [c]) longer
  exact read [] (by simp)

/-! What is written of a name -/

/-- What is written before anything stands there is the same without the first underscore. -/
theorem continued_unstarted (separated : Bool) (name : List Char) :
    continued false separated name = (continued true true name).tail := by
  induction name generalizing separated with
  | nil => rfl
  | cons c rest ih =>
    by_cases kept : isKept c = true
    · simp [continued, kept]
    · simp [continued, kept, ih]

/-- Behind a character that was kept, what is left of a run is written without an underscore. -/
theorem continued_run (whole : ∀ c ∈ run, isSeparator c = false) (rest : List Char) :
    continued true false (run ++ rest) = wordOf run ++ continued true false rest := by
  induction run with
  | nil => rfl
  | cons c run ih =>
    obtain ⟨inside, later⟩ := List.forall_mem_cons.mp whole
    have kind := isKept_eq c
    by_cases kept : isKept c = true
    · simp [continued, kept, ih later, wordOf, ← kind, lowerChar_eq]
    · simp [continued, kept, inside, ih later, wordOf, ← kind]

/-- Behind a separator, an underscore is written before the word of a run; where the run holds no word, the separator
still waits for the next one. -/
theorem continued_word (whole : ∀ c ∈ run, isSeparator c = false) (rest : List Char) :
    continued true true (run ++ rest) =
      (wordsOf run).flatMap ('_' :: ·) ++ continued true (wordOf run).isEmpty rest := by
  rw [wordsOf_of_run whole]
  induction run with
  | nil => rfl
  | cons c run ih =>
    obtain ⟨inside, later⟩ := List.forall_mem_cons.mp whole
    have kind := isKept_eq c
    by_cases kept : isKept c = true
    · simp [continued, kept, continued_run later, wordOf, ← kind, lowerChar_eq]
    · simp [continued, kept, ih later, wordOf, ← kind]

theorem continued_separator (separates : isSeparator c = true) (started separated : Bool) (rest : List Char) :
    continued started separated (c :: rest) = continued started true rest := by
  rw [continued, isKept_eq_false_of_isSeparator separates, separates, Bool.or_true]
  rfl

/-- Behind a separator, each word of a name is written with an underscore before it. -/
theorem continued_eq_flatMap (name : List Char) : continued true true name = (wordsOf name).flatMap ('_' :: ·) := by
  induction name using runs_induction with
  | last run whole => simpa [continued] using continued_word whole []
  | more run c rest whole separates ih =>
    rw [continued_word whole, continued_separator separates, ih, wordsOf_append run rest separates, List.flatMap_append]

/-- The slug of a name is its words with single underscores between them. -/
theorem toList_ofName (name : String) : (ofName name).toList = ['_'].intercalate (wordsOf name.toList) := by
  rw [ofName, String.toList_ofList, continued_unstarted, continued_eq_flatMap, tail_flatMap_cons]

example : ofName " -Über.Flow - ! - v2_" = "ber_flow_v2" := by decide +kernel

/-! The form of slugs -/

/-- A slug is made of lower-case letters, digits and underscores; no underscore stands at an end of it, and no two of
them stand together. -/
@[mk_iff] structure IsSlug (text : List Char) : Prop where
  plain : ∀ c ∈ text, isWordChar c = true ∨ c = '_'
  front : text.head? ≠ some '_'
  back : text.getLast? ≠ some '_'
  single : ¬['_', '_'] <:+: text

theorem single_iff : ¬['_', '_'] <:+: text ↔ text.IsChain fun c d => c ≠ '_' ∨ d ≠ '_' := by
  constructor
  · intro single
    refine (List.isChain_isInfix text).imp fun c d together => ?_
    by_contra both
    obtain ⟨rfl, rfl⟩ : c = '_' ∧ d = '_' := by simpa using both
    exact single together
  · intro chain together
    simpa using chain.infix together

theorem isSlug_of_word (word : ∀ c ∈ text, isWordChar c = true) : IsSlug text := by
  have other : '_' ∉ text := fun member => absurd (word '_' member) (by decide)
  refine ⟨fun c member => .inl (word c member), fun first => ?_, fun last => ?_, fun together => ?_⟩
  · exact other (List.mem_of_mem_head? first)
  · exact other (List.mem_of_getLast? last)
  · exact other (together.subset List.mem_cons_self)

theorem head?_join : (front ++ '_' :: back).head? ≠ some '_' ↔ front ≠ [] ∧ front.head? ≠ some '_' := by
  cases front <;> simp

theorem getLast?_join : (front ++ '_' :: back).getLast? ≠ some '_' ↔ back ≠ [] ∧ back.getLast? ≠ some '_' := by
  rw [List.getLast?_append_of_ne_nil front (List.cons_ne_nil _ _)]
  cases back <;> simp

theorem single_join : ¬['_', '_'] <:+: front ++ '_' :: back ↔
    (¬['_', '_'] <:+: front ∧ front.getLast? ≠ some '_') ∧ ¬['_', '_'] <:+: back ∧ back.head? ≠ some '_' := by
  have other (place : Option Char) : (∀ c ∈ place, c ≠ '_') ↔ place ≠ some '_' :=
    ⟨fun each same => each '_' same rfl, fun none c same underscore => none (underscore ▸ same)⟩
  have starts : (∀ d ∈ back.head?, '_' ≠ '_' ∨ d ≠ '_') ↔ back.head? ≠ some '_' := by simpa using other back.head?
  have ends : (∀ c ∈ front.getLast?, ∀ d ∈ ('_' :: back).head?, c ≠ '_' ∨ d ≠ '_') ↔ front.getLast? ≠ some '_' := by
    simpa using other front.getLast?
  rw [single_iff, List.isChain_append, List.isChain_cons, starts, ends, ← single_iff, ← single_iff]
  tauto

/-- Two texts with an underscore between them are a slug just when both are slugs and neither is empty. -/
theorem isSlug_join_iff :
    IsSlug (front ++ '_' :: back) ↔ (front ≠ [] ∧ IsSlug front) ∧ back ≠ [] ∧ IsSlug back := by
  have characters : (∀ c ∈ front ++ '_' :: back, isWordChar c = true ∨ c = '_') ↔
      (∀ c ∈ front, isWordChar c = true ∨ c = '_') ∧ ∀ c ∈ back, isWordChar c = true ∨ c = '_' := by
    simp [or_imp, forall_and]
  simp only [isSlug_iff, characters, head?_join, getLast?_join, single_join]
  tauto

/-- Words with single underscores between them are a slug. -/
theorem isSlug_intercalate {words : List (List Char)}
    (each : ∀ word ∈ words, word ≠ [] ∧ ∀ c ∈ word, isWordChar c = true) : IsSlug (['_'].intercalate words) := by
  induction words with
  | nil => exact isSlug_of_word (by simp)
  | cons word rest ih =>
    obtain ⟨⟨filled, inside⟩, later⟩ := List.forall_mem_cons.mp each
    cases rest with
    | nil => simpa using isSlug_of_word inside
    | cons next more =>
      have filledNext : next ≠ [] := (later next List.mem_cons_self).1
      rw [List.intercalate_cons_cons, List.append_assoc, List.singleton_append, isSlug_join_iff]
      refine ⟨⟨filled, isSlug_of_word inside⟩, ?_, ih later⟩
      cases more <;> simp [filledNext]

theorem isSlug_ofName (name : String) : IsSlug (ofName name).toList := by
  rw [toList_ofName]
  exact isSlug_intercalate fun word member => isWord_of_mem_wordsOf member

/-- A slug without underscores is its own word. -/
theorem IsSlug.wordsOf_run (slug : IsSlug run) (whole : ∀ c ∈ run, isSeparator c = false) :
    wordsOf run = [run].filter (!·.isEmpty) := by
  have inside : ∀ c ∈ run, isWordChar c = true := fun c member =>
    (slug.plain c member).resolve_right fun underscore => absurd (whole c member) (by rw [underscore]; decide)
  rw [wordsOf_of_run whole, wordOf_eq_self inside]

/-- A slug is put together again from its words. -/
theorem IsSlug.intercalate_wordsOf (slug : IsSlug text) : ['_'].intercalate (wordsOf text) = text := by
  induction text using runs_induction with
  | last run whole =>
    rw [slug.wordsOf_run whole]
    cases run <;> simp
  | more run c rest whole separates ih =>
    obtain rfl : c = '_' := (slug.plain c (by simp)).resolve_left fun inside => by
      simpa [isKept_of_isWordChar inside] using isKept_eq_false_of_isSeparator separates
    obtain ⟨⟨filled, first⟩, more, second⟩ := isSlug_join_iff.mp slug
    have some : wordsOf rest ≠ [] := fun none => more (by rw [← ih second, none]; rfl)
    have single : [run].filter (!·.isEmpty) = [run] := by simp [filled]
    rw [wordsOf_append run rest separates, first.wordsOf_run whole, single,
      intercalate_append (List.cons_ne_nil _ _) some, ih second]
    simp

/-- The names that are their own slugs are the texts of the form of slugs. -/
theorem ofName_eq_self_iff {name : String} : ofName name = name ↔ IsSlug name.toList := by
  constructor
  · intro same
    exact same ▸ isSlug_ofName name
  · intro slug
    rw [← String.toList_inj, toList_ofName, slug.intercalate_wordsOf]

/-- Slugs are canonical: the slug of any name has the form of slugs and is its own slug, and it is made of the words of
the name. -/
theorem ofName_canonical (name : String) : IsSlug (ofName name).toList ∧ ofName (ofName name) = ofName name ∧
    (ofName name).toList = ['_'].intercalate (wordsOf name.toList) :=
  ⟨isSlug_ofName name, ofName_eq_self_iff.mpr (isSlug_ofName name), toList_ofName name⟩

end Slug

end Runbook

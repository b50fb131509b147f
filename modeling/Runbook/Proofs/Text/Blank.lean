import Mathlib.Data.List.DropRight
import Runbook.Text.Blank

/-!
What trimming and splitting into words leave: a trimmed text has no blank at either end, and a word has none at all.
Blanks around a text do not matter to its trimmed form.
-/

namespace Runbook.Text

variable {text front back : List Char}

theorem dropBack_eq_rdropWhile (p : Char → Bool) (text : List Char) : dropBack p text = text.rdropWhile p := by
  induction text with
  | nil => rfl
  | cons c rest ih =>
    have unfolded : dropBack p (c :: rest) =
        if (dropBack p rest).isEmpty && p c then [] else c :: dropBack p rest := rfl
    rw [unfolded, ih, List.rdropWhile, List.rdropWhile, List.reverse_cons, List.dropWhile_append]
    by_cases gone : List.dropWhile p rest.reverse = []
    · rw [gone]
      cases holds : p c <;> simp [holds]
    · simp [gone]

theorem trim_eq (text : List Char) : trim text = (text.dropWhile isBlank).rdropWhile isBlank :=
  dropBack_eq_rdropWhile isBlank _

theorem trim_eq_nil_iff : trim text = [] ↔ ∀ c ∈ text, isBlank c = true := by
  rw [trim_eq, List.rdropWhile_eq_nil_iff]
  constructor
  · intro blank
    have none : text.dropWhile isBlank = [] := by
      by_contra some
      have solid := List.head_dropWhile_not isBlank some
      rw [blank _ (List.head_mem some)] at solid
      cases solid
    exact List.dropWhile_eq_nil_iff.mp none
  · intro blank c member
    exact blank c ((List.dropWhile_suffix _).subset member)

/-- No blank stands at the front of a text. -/
theorem dropWhile_isBlank_eq_self_iff :
    text.dropWhile isBlank = text ↔ ∀ c ∈ text.head?, isBlank c = false := by
  cases text with
  | nil => simp
  | cons c rest => simp [List.dropWhile_eq_self_iff]

/-- No blank stands at the end of a text. -/
theorem rdropWhile_isBlank_eq_self_iff :
    text.rdropWhile isBlank = text ↔ ∀ c ∈ text.getLast?, isBlank c = false := by
  rw [List.rdropWhile_eq_self_iff]
  cases text using List.reverseRecOn with
  | nil => simp
  | append_singleton rest c => simp

/-- A text is trimmed just when it neither starts nor ends with a blank. -/
theorem isTrimmed_iff :
    IsTrimmed text ↔ (∀ c ∈ text.head?, isBlank c = false) ∧ ∀ c ∈ text.getLast?, isBlank c = false := by
  rw [← dropWhile_isBlank_eq_self_iff, ← rdropWhile_isBlank_eq_self_iff, IsTrimmed, trim_eq]
  constructor
  · intro trimmed
    have shorter : text.length ≤ (text.dropWhile isBlank).length :=
      calc text.length = ((text.dropWhile isBlank).rdropWhile isBlank).length := by rw [trimmed]
        _ ≤ (text.dropWhile isBlank).length := (List.rdropWhile_prefix isBlank _).length_le
    have front : text.dropWhile isBlank = text := (List.dropWhile_suffix isBlank).eq_of_length_le shorter
    exact ⟨front, by rwa [front] at trimmed⟩
  · rintro ⟨front, back⟩
    rw [front, back]

theorem IsTrimmed.getLast?_ne (trimmed : IsTrimmed text) {c : Char} (blank : isBlank c = true) :
    text.getLast? ≠ some c := by
  intro last
  rw [(isTrimmed_iff.mp trimmed).2 c last] at blank
  cases blank

/-- A text is trimmed if it starts with a character that is not blank and a trimmed text stands at its end. -/
theorem isTrimmed_append {c : Char} (solid : isBlank c = false) (more : back ≠ []) (trimmed : IsTrimmed back) :
    IsTrimmed (c :: front ++ back) := by
  refine isTrimmed_iff.mpr ⟨?_, ?_⟩
  · intro d first
    obtain rfl : c = d := by simpa using first
    exact solid
  · rw [List.getLast?_append_of_ne_nil _ more]
    exact (isTrimmed_iff.mp trimmed).2

/-- Two texts that are trimmed and not empty are the ends of a trimmed text. -/
theorem isTrimmed_between (first : IsTrimmed front) (filled : front ≠ []) (second : IsTrimmed back)
    (more : back ≠ []) : IsTrimmed (front ++ text ++ back) := by
  rw [isTrimmed_iff] at first second ⊢
  rw [List.append_assoc, List.head?_append_of_ne_nil _ filled, ← List.append_assoc,
    List.getLast?_append_of_ne_nil _ more]
  exact ⟨first.1, second.2⟩

theorem isTrimmed_trim (text : List Char) : IsTrimmed (trim text) := by
  rw [isTrimmed_iff, trim_eq]
  constructor
  · intro c first
    obtain ⟨rest, whole⟩ := List.rdropWhile_prefix isBlank (text.dropWhile isBlank)
    have atFront : c ∈ (text.dropWhile isBlank).head? := by
      rw [← whole, List.head?_append, first]
      rfl
    exact dropWhile_isBlank_eq_self_iff.mp (List.dropWhile_idempotent isBlank text) c atFront
  · exact rdropWhile_isBlank_eq_self_iff.mp (List.rdropWhile_idempotent isBlank _)

@[simp] theorem toList_trimmed (text : String) : (trimmed text).toList = trim text.toList := String.toList_ofList

/-- Blanks around a text are lost when it is trimmed. -/
theorem trim_pad (before : ∀ c ∈ front, isBlank c = true) (after : ∀ c ∈ back, isBlank c = true) :
    trim (front ++ text ++ back) = trim text := by
  have dropsFront : (front ++ text ++ back).dropWhile isBlank = (text ++ back).dropWhile isBlank := by
    rw [List.append_assoc, List.dropWhile_append_of_pos before]
  have dropsBack (kept : List Char) : (kept ++ back).rdropWhile isBlank = kept.rdropWhile isBlank := by
    have blank : ∀ c ∈ back.reverse, isBlank c = true := fun c member => after c (List.mem_reverse.mp member)
    rw [List.rdropWhile, List.reverse_append, List.dropWhile_append_of_pos blank, List.rdropWhile]
  rw [trim_eq, trim_eq, dropsFront, List.dropWhile_append]
  split
  · next gone =>
    rw [List.isEmpty_iff.mp gone, List.dropWhile_eq_nil_iff.mpr after]
  · exact dropsBack _

theorem trim_cons {c : Char} (blank : isBlank c = true) (text : List Char) : trim (c :: text) = trim text := by
  rw [trim_eq, trim_eq, List.dropWhile_cons_of_pos blank]

/-- What is dropped at the end does not go beyond a character that is kept. -/
theorem rdropWhile_append_cons {p : Char → Bool} {c : Char} (kept : p c = false) :
    (front ++ c :: back).rdropWhile p = front ++ c :: back.rdropWhile p := by
  induction back using List.reverseRecOn with
  | nil => simp [kept]
  | append_singleton rest last ih =>
    rw [← List.cons_append, ← List.append_assoc]
    by_cases dropped : p last = true
    · rw [List.rdropWhile_concat_pos _ _ _ dropped, List.rdropWhile_concat_pos _ _ _ dropped, ih]
    · rw [List.rdropWhile_concat_neg _ _ _ dropped, List.rdropWhile_concat_neg _ _ _ dropped]
      simp

theorem trim_rdropWhile (text : List Char) : trim (text.rdropWhile isBlank) = trim text := by
  have nothing : ∀ c ∈ ([] : List Char), isBlank c = true := by simp
  have ending : ∀ c ∈ text.rtakeWhile isBlank, isBlank c = true := fun _ => List.mem_rtakeWhile_imp
  calc trim (text.rdropWhile isBlank) = trim ([] ++ text.rdropWhile isBlank ++ text.rtakeWhile isBlank) :=
        (trim_pad nothing ending).symm
    _ = trim text := by rw [List.nil_append, List.rdropWhile_append_rtakeWhile]

/-- A text is its trimmed form with blanks around it. -/
theorem exists_pad (text : List Char) : ∃ front back, (∀ c ∈ front, isBlank c = true) ∧
    (∀ c ∈ back, isBlank c = true) ∧ text = front ++ trim text ++ back := by
  refine ⟨text.takeWhile isBlank, (text.dropWhile isBlank).rtakeWhile isBlank, fun _ => List.mem_takeWhile_imp,
    fun _ => List.mem_rtakeWhile_imp, ?_⟩
  rw [trim_eq, List.append_assoc, List.rdropWhile_append_rtakeWhile, List.takeWhile_append_dropWhile]

/-- What is not blank is kept. -/
theorem mem_trim {c : Char} (member : c ∈ text) (solid : isBlank c = false) : c ∈ trim text := by
  obtain ⟨front, back, before, after, whole⟩ := exists_pad text
  rw [whole] at member
  rcases List.mem_append.mp member with early | late
  · rcases List.mem_append.mp early with inFront | inside
    · rw [before c inFront] at solid
      cases solid
    · exact inside
  · rw [after c late] at solid
    cases solid

/-- Nothing is put in. -/
theorem mem_of_mem_strip {p : Char → Bool} {c : Char} (member : c ∈ strip p text) : c ∈ text := by
  rw [strip, dropBack_eq_rdropWhile] at member
  exact (List.dropWhile_suffix p).mem ((List.rdropWhile_prefix p _).mem member)

theorem mem_of_mem_trim {c : Char} (member : c ∈ trim text) : c ∈ text := mem_of_mem_strip member

/-- A text without blanks that is not empty. -/
structure IsSolid (text : List Char) : Prop where
  ne_nil : text ≠ []
  isBlank_eq_false : ∀ c ∈ text, isBlank c = false

theorem isSolid_iff : (!text.isEmpty && !text.any isBlank) = true ↔ IsSolid text := by
  simp only [Bool.and_eq_true, Bool.not_eq_true', List.isEmpty_eq_false_iff, List.any_eq_false, Bool.not_eq_true]
  exact ⟨fun ⟨filled, solid⟩ => ⟨filled, solid⟩, fun solid => ⟨solid.ne_nil, solid.isBlank_eq_false⟩⟩

instance (text : List Char) : Decidable (IsSolid text) :=
  decidable_of_iff _ isSolid_iff

theorem IsSolid.isTrimmed (solid : IsSolid text) : IsTrimmed text :=
  isTrimmed_iff.mpr ⟨fun c first => solid.isBlank_eq_false c (List.mem_of_mem_head? first),
    fun c last => solid.isBlank_eq_false c (List.mem_of_getLast? last)⟩

theorem IsSolid.append (first : IsSolid front) (second : IsSolid back) : IsSolid (front ++ back) := by
  refine ⟨by simp [first.ne_nil], fun c member => ?_⟩
  rcases List.mem_append.mp member with inFront | inBack
  · exact first.isBlank_eq_false c inFront
  · exact second.isBlank_eq_false c inBack

theorem IsSolid.not_mem (solid : IsSolid text) {c : Char} (blank : isBlank c = true) : c ∉ text := fun member => by
  rw [solid.isBlank_eq_false c member] at blank
  cases blank

/-- The pieces between blanks hold no blank. -/
theorem isBlank_eq_false_of_mem_go {word : List Char} (member : word ∈ words.go text) :
    ∀ c ∈ word, isBlank c = false := by
  induction text generalizing word with
  | nil =>
    obtain rfl := List.mem_singleton.mp member
    simp
  | cons c rest ih =>
    unfold words.go at member
    split at member
    · rcases List.mem_cons.mp member with rfl | later
      · simp
      · exact ih later
    · next solid =>
      split at member
      · obtain rfl := List.mem_singleton.mp member
        simpa using solid
      · next next more split =>
        rw [split] at ih
        rcases List.mem_cons.mp member with rfl | later
        · intro d inside
          rcases List.mem_cons.mp inside with rfl | inNext
          · simpa using solid
          · exact ih List.mem_cons_self d inNext
        · exact ih (List.mem_cons_of_mem _ later)

theorem isSolid_of_mem_words {word : List Char} (member : word ∈ words text) : IsSolid word := by
  obtain ⟨piece, some⟩ := List.mem_filter.mp member
  exact ⟨by simpa using some, isBlank_eq_false_of_mem_go piece⟩

/-- What is not blank is in one of the words. -/
theorem exists_mem_words {c : Char} (member : c ∈ text) (solid : isBlank c = false) :
    ∃ word ∈ words text, c ∈ word := by
  have piece : ∃ word ∈ words.go text, c ∈ word := by
    induction text with
    | nil => cases member
    | cons d rest ih =>
      unfold words.go
      split
      · next blank =>
        have later : c ∈ rest := (List.mem_cons.mp member).resolve_left fun same => by
          rw [← same, solid] at blank
          cases blank
        obtain ⟨word, inside, held⟩ := ih later
        exact ⟨word, List.mem_cons_of_mem _ inside, held⟩
      · rcases List.mem_cons.mp member with rfl | later
        · split <;> exact ⟨_, List.mem_cons_self, List.mem_cons_self⟩
        · obtain ⟨word, inside, held⟩ := ih later
          split
          · next none =>
            rw [none] at inside
            cases inside
          · next next more split =>
            rw [split] at inside
            rcases List.mem_cons.mp inside with rfl | behind
            · exact ⟨_, List.mem_cons_self, List.mem_cons_of_mem _ held⟩
            · exact ⟨word, List.mem_cons_of_mem _ behind, held⟩
  obtain ⟨word, inside, held⟩ := piece
  exact ⟨word, List.mem_filter.mpr ⟨inside, by simpa using List.ne_nil_of_mem held⟩, held⟩

end Runbook.Text

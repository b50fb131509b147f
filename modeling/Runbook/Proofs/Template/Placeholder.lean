import Runbook.Proofs.Text.Blank
import Runbook.Proofs.Text.Decimal
import Runbook.Proofs.Text.Lines
import Runbook.Template.Basic

/-!
Placeholders as they are written: a name between two pairs of braces, with blanks around it. The reader of templates
finds a placeholder at the front of a text exactly where one is written there, and goes on behind it.
-/

namespace Runbook.Template

open Runbook.Text

/-- The name in a placeholder: a letter or an underscore, then letters, digits, underscores, dots and hyphens; a dollar
sign may stand first. -/
inductive IsName : List Char → Prop
  | plain {first : Char} {rest : List Char} (starts : isNameStart first = true)
      (goesOn : ∀ c ∈ rest, isNameChar c = true) : IsName (first :: rest)
  | marked {first : Char} {rest : List Char} (starts : isNameStart first = true)
      (goesOn : ∀ c ∈ rest, isNameChar c = true) : IsName ('$' :: first :: rest)

/-- A text is a placeholder with a name. -/
inductive IsHole : List Char → String → Prop
  | braced {front name back : List Char} (before : ∀ c ∈ front, isBlank c = true) (named : IsName name)
      (behind : ∀ c ∈ back, isBlank c = true) :
      IsHole ('\x7b' :: '\x7b' :: (front ++ (name ++ (back ++ ['\x7d', '\x7d'])))) (String.ofList name)

/-- A placeholder is written at the front of a text. -/
def StartsHole (text : List Char) : Prop := ∃ hole name rest, IsHole hole name ∧ text = hole ++ rest

variable {text hole rest : List Char} {name : String}

theorem IsHole.exists_cons (isHole : IsHole hole name) : ∃ c more, hole = c :: more := by
  cases isHole
  exact ⟨_, _, rfl⟩

theorem isNameChar_bounds {c : Char} (named : isNameChar c = true) : 45 ≤ c.toNat ∧ c.toNat ≤ 122 := by
  have ranges : ((((97 ≤ c.toNat ∧ c.toNat ≤ 122 ∨ 65 ≤ c.toNat ∧ c.toNat ≤ 90) ∨ 48 ≤ c.toNat ∧ c.toNat ≤ 57) ∨
      c.toNat = 95) ∨ c.toNat = 46) ∨ c.toNat = 45 := by
    simp only [isNameChar, Bool.or_eq_true, isLetter_iff, isDigit_iff, beq_iff_eq, ← Char.toNat_inj] at named
    exact named
  omega

/-- No blank belongs to a name. -/
theorem isNameChar_eq_false_of_isBlank {c : Char} (blank : isBlank c = true) : isNameChar c = false := by
  by_contra named
  have bounds := isNameChar_bounds (by simpa using named)
  simp only [isBlank, Bool.or_eq_true, Bool.and_eq_true, decide_eq_true_eq, beq_iff_eq] at blank
  omega

theorem isNameChar_of_isNameStart {c : Char} (starts : isNameStart c = true) : isNameChar c = true := by
  simp only [isNameStart, isNameChar, Bool.or_eq_true] at starts ⊢
  tauto

/-- A name starts with a character that is not blank. -/
theorem IsName.exists_head {name : List Char} (named : IsName name) :
    ∃ c more, name = c :: more ∧ isBlank c = false := by
  cases named with
  | @plain first rest starts goesOn =>
    refine ⟨first, rest, rfl, ?_⟩
    by_contra blank
    have apart := isNameChar_eq_false_of_isBlank (by simpa using blank)
    rw [isNameChar_of_isNameStart starts] at apart
    cases apart
  | marked => exact ⟨'$', _, rfl, by decide⟩

/-- The name that is read at the front of a text is all of the name that is written there. -/
theorem takeName_append {found : List Char} (named : IsName found) (ends : ∀ c ∈ rest.head?, isNameChar c = false) :
    takeName (found ++ rest) = some (found, rest) := by
  cases named with
  | @plain first more starts goesOn =>
    have taken := takeWhile_run goesOn ends
    have left := dropWhile_run goesOn ends
    have unmarked : first ≠ '$' := by
      rintro rfl
      exact absurd starts (by decide)
    unfold takeName
    split
    next mark body parts =>
    split at parts
    · next same => exact absurd (List.cons.inj same).1 unmarked
    · cases parts
      simp [starts, taken, left]
  | marked starts goesOn =>
    simp [takeName, starts, takeWhile_run goesOn ends, dropWhile_run goesOn ends]

/-- A name that is read at the front of a text is written there. -/
theorem exists_of_takeName {found : List Char} (read : takeName text = some (found, rest)) :
    IsName found ∧ text = found ++ rest := by
  have goesOn (more : List Char) : ∀ c ∈ more.takeWhile isNameChar, isNameChar c = true := fun _ =>
    List.mem_takeWhile_imp
  unfold takeName at read
  split at read
  next mark body parts =>
  split at read
  · next first more =>
    split at read
    · next starts =>
      cases read
      split at parts
      · cases parts
        exact ⟨.marked starts (goesOn more), by simp⟩
      · cases parts
        exact ⟨.plain starts (goesOn more), by simp⟩
    · cases read
  · cases read

/-- A placeholder that is written at the front of a text is read there. -/
theorem IsHole.hole?_append (isHole : IsHole hole name) (rest : List Char) :
    hole? (hole ++ rest) = some (name, hole.length) := by
  cases isHole with
  | @braced front name back before named behind =>
    obtain ⟨c, more, starts, solid⟩ := named.exists_head
    have inside : (front ++ (name ++ (back ++ '\x7d' :: '\x7d' :: rest))).dropWhile isBlank =
        name ++ (back ++ '\x7d' :: '\x7d' :: rest) := by
      refine dropWhile_run before ?_
      simpa [starts] using solid
    have ends : ∀ d ∈ (back ++ '\x7d' :: '\x7d' :: rest).head?, isNameChar d = false := by
      intro d first
      cases back with
      | nil =>
        cases first
        decide
      | cons b back =>
        cases first
        exact isNameChar_eq_false_of_isBlank (behind _ List.mem_cons_self)
    have closing : (back ++ '\x7d' :: '\x7d' :: rest).dropWhile isBlank = '\x7d' :: '\x7d' :: rest :=
      dropWhile_run behind (by simpa using (by decide : isBlank '\x7d' = false))
    have whole : '\x7b' :: '\x7b' :: (front ++ (name ++ (back ++ ['\x7d', '\x7d']))) ++ rest =
        '\x7b' :: '\x7b' :: (front ++ (name ++ (back ++ '\x7d' :: '\x7d' :: rest))) := by simp
    rw [whole]
    simp only [hole?, inside, takeName_append named ends, closing, List.length_cons, List.length_append,
      List.length_nil]
    congr 2
    omega

/-- A placeholder that is read at the front of a text is written there. -/
theorem exists_of_hole? {length : Nat} (read : hole? text = some (name, length)) :
    ∃ hole rest, IsHole hole name ∧ text = hole ++ rest ∧ hole.length = length := by
  have blank (text : List Char) : ∀ c ∈ text.takeWhile isBlank, isBlank c = true := fun _ => List.mem_takeWhile_imp
  unfold hole? at read
  split at read
  · next inside =>
    split at read
    · next found behind named =>
      split at read
      · next after closes =>
        obtain ⟨isName, split⟩ := exists_of_takeName named
        have whole : inside = inside.takeWhile isBlank ++ (found ++ (behind.takeWhile isBlank ++
            '\x7d' :: '\x7d' :: after)) := by
          rw [← closes, List.takeWhile_append_dropWhile, ← split, List.takeWhile_append_dropWhile]
        simp only [Option.some.injEq, Prod.mk.injEq] at read
        obtain ⟨rfl, rfl⟩ := read
        refine ⟨_, after, .braced (blank inside) isName (blank behind), ?_, ?_⟩
        · conv_lhs => rw [whole]
          simp
        · conv_rhs => rw [whole]
          simp only [List.length_cons, List.length_append, List.length_nil]
          omega
      · cases read
    · cases read
  · cases read

theorem hole?_eq_none_iff : hole? text = none ↔ ¬StartsHole text := by
  constructor
  · rintro none ⟨hole, name, rest, isHole, rfl⟩
    rw [isHole.hole?_append] at none
    cases none
  · intro apart
    cases read : hole? text with
    | none => rfl
    | some found =>
      obtain ⟨name, length⟩ := found
      obtain ⟨hole, rest, isHole, whole, -⟩ := exists_of_hole? read
      exact absurd ⟨hole, name, rest, isHole, whole⟩ apart

instance (text : List Char) : Decidable (StartsHole text) :=
  decidable_of_iff (hole? text ≠ none) (by rw [ne_eq, hole?_eq_none_iff, Classical.not_not])

/-- Two placeholders at the front of one text are the same. -/
theorem IsHole.unique {other after : List Char} {second : String} (isHole : IsHole hole name)
    (isOther : IsHole other second) (same : hole ++ rest = other ++ after) :
    hole = other ∧ name = second ∧ rest = after := by
  have read := (isHole.hole?_append rest).symm.trans (same ▸ isOther.hole?_append after)
  simp only [Option.some.injEq, Prod.mk.injEq] at read
  obtain ⟨left, right⟩ := List.append_inj same read.2
  exact ⟨left, read.1, right⟩

theorem piecesAfter_append (front rest : List Char) :
    piecesAfter front.length (front ++ rest) = piecesAfter 0 rest := by
  induction front with
  | nil => rfl
  | cons c front ih => exact ih

/-- A placeholder is one piece. -/
theorem IsHole.piecesAfter_append (isHole : IsHole hole name) (rest : List Char) :
    piecesAfter 0 (hole ++ rest) = .hole name :: piecesAfter 0 rest := by
  obtain ⟨c, more, rfl⟩ := isHole.exists_cons
  have read := isHole.hole?_append rest
  rw [List.cons_append] at read ⊢
  rw [piecesAfter]
  simp only [read, List.length_cons, Nat.add_sub_cancel, Template.piecesAfter_append]

/-- A text that is one placeholder has no other pieces. -/
theorem IsHole.pieces_eq {text : String} (isHole : IsHole text.toList name) : pieces text = [.hole name] := by
  have whole := isHole.piecesAfter_append []
  rw [List.append_nil] at whole
  exact whole

/-- A character at which no placeholder starts is a piece of its own. -/
theorem piecesAfter_cons {c : Char} (apart : ¬StartsHole (c :: rest)) :
    piecesAfter 0 (c :: rest) = .char c :: piecesAfter 0 rest := by
  rw [piecesAfter]
  simp only [hole?_eq_none_iff.mpr apart]

/-- The leftmost placeholder of a text is written somewhere in it. -/
theorem exists_of_firstHole? {length : Nat} (found : firstHole? text = some (name, length)) :
    ∃ gap hole rest, text = gap ++ (hole ++ rest) ∧ IsHole hole name ∧ hole.length = length := by
  induction text with
  | nil => cases found
  | cons c text ih =>
    rw [firstHole?] at found
    split at found
    · next read =>
      cases found
      obtain ⟨hole, rest, isHole, whole, long⟩ := exists_of_hole? read
      exact ⟨[], hole, rest, whole, isHole, long⟩
    · obtain ⟨gap, hole, rest, rfl, isHole, long⟩ := ih found
      exact ⟨c :: gap, hole, rest, rfl, isHole, long⟩

/-- The leftmost placeholder is as long as the text exactly where the text is a placeholder and nothing else. -/
theorem soleHole?_eq_some_iff {text : String} : soleHole? text = some name ↔ IsHole text.toList name := by
  unfold soleHole?
  constructor
  · intro sole
    split at sole
    · next found =>
      obtain ⟨gap, hole, rest, whole, isHole, long⟩ := exists_of_firstHole? found
      split at sole
      · next same =>
        cases sole
        have total : hole.length = gap.length + (hole.length + rest.length) := by
          rw [← List.length_append, ← List.length_append, ← whole, long]
          exact eq_of_beq same
        have none : gap = [] := List.eq_nil_of_length_eq_zero (by omega)
        have nothing : rest = [] := List.eq_nil_of_length_eq_zero (by omega)
        rw [whole, none, nothing, List.nil_append, List.append_nil]
        exact isHole
      · cases sole
    · cases sole
  · intro isHole
    have read := isHole.hole?_append []
    rw [List.append_nil] at read
    obtain ⟨c, more, parts⟩ := isHole.exists_cons
    rw [parts] at read ⊢
    simp [firstHole?, read]

end Runbook.Template

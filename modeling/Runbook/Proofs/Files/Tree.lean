import Runbook.Files.Tree
import Runbook.Proofs.Control
import Runbook.Proofs.Text.Lines

/-!
Trees of files that grow. Nothing that is done to a tree removes a directory, so a pathname that leads somewhere leads
there from then on, and a file keeps its text while it is other places that are written to.
-/

namespace Runbook

open Runbook.Text

namespace FileTree

variable {tree later : FileTree} {workingDirectory place other start : Place} {entry : FileEntry} {path : String}

/-! The entry at a place after one is put somewhere -/

theorem lookup_replace_ne (entries : List (Place × FileEntry)) (entry : FileEntry) (apart : other ≠ place) :
    (entries.map fun held => if held.1 == place then (place, entry) else held).lookup other = entries.lookup other := by
  induction entries with
  | nil => rfl
  | cons held rest ih =>
    obtain ⟨key, value⟩ := held
    by_cases here : key = place
    · subst here
      have skipped : (other == key) = false := beq_eq_false_iff_ne.mpr apart
      simp only [List.map_cons, beq_self_eq_true, if_true, List.lookup_cons, skipped, ih]
    · have kept : (key == place) = false := beq_eq_false_iff_ne.mpr here
      simp only [List.map_cons, kept, Bool.false_eq_true, if_false, List.lookup_cons, ih]

theorem lookup_replace_self {entries : List (Place × FileEntry)} (entry : FileEntry)
    (held : (entries.lookup place).isSome) :
    (entries.map fun held => if held.1 == place then (place, entry) else held).lookup place = some entry := by
  induction entries with
  | nil => cases held
  | cons first rest ih =>
    obtain ⟨key, value⟩ := first
    by_cases here : key = place
    · subst here
      simp only [List.map_cons, beq_self_eq_true, if_true, List.lookup_cons]
    · have apart : (place == key) = false := beq_eq_false_iff_ne.mpr (Ne.symm here)
      have kept : (key == place) = false := beq_eq_false_iff_ne.mpr here
      simp only [List.lookup_cons, apart] at held
      simp only [List.map_cons, kept, Bool.false_eq_true, if_false, List.lookup_cons, apart]
      exact ih held

theorem entry?_put_self (named : place ≠ []) : entry? (tree.put place entry) place = some entry := by
  have below : place.isEmpty = false := List.isEmpty_eq_false_iff.mpr named
  unfold entry? put
  rw [below]
  by_cases held : (tree.entries.lookup place).isSome
  · rw [if_pos held]
    exact lookup_replace_self entry held
  · have missing : tree.entries.lookup place = none := Option.not_isSome_iff_eq_none.mp held
    rw [if_neg held]
    simp [List.lookup_append, missing]

theorem entry?_put_ne (apart : other ≠ place) : entry? (tree.put place entry) other = tree.entry? other := by
  unfold entry? put
  by_cases held : (tree.entries.lookup place).isSome
  · rw [if_pos held, lookup_replace_ne _ _ apart]
  · have skipped : (other == place) = false := beq_eq_false_iff_ne.mpr apart
    rw [if_neg held, List.lookup_append]
    simp [List.lookup_cons, skipped]

/-! Trees that keep their directories -/

/-- A tree that has every directory of an earlier one. -/
def Covers (later earlier : FileTree) : Prop :=
  ∀ place, earlier.entry? place = some .directory → later.entry? place = some .directory

/-- Putting an entry where no directory stands keeps every directory. -/
theorem covers_put (free : tree.entry? place ≠ some .directory) : (tree.put place entry).Covers tree := by
  intro other directory
  have apart : other ≠ place := fun same => free (same ▸ directory)
  rw [entry?_put_ne apart, directory]

theorem Covers.follow_eq (covers : later.Covers tree) {pieces : List String}
    (followed : tree.follow start pieces = .ok place) : later.follow start pieces = .ok place := by
  induction pieces generalizing start with
  | nil => exact followed
  | cons piece rest ih =>
    rw [follow] at followed ⊢
    split at followed
    · cases followed
    · cases followed
    · next directory =>
      rw [covers start directory]
      dsimp only
      split at followed
      · next idle => rw [if_pos idle, ih followed]
      · next named =>
        rw [if_neg named]
        split at followed
        · next up => rw [if_pos up, ih followed]
        · next down =>
          rw [if_neg down]
          split at followed
          · cases followed
          · next fits => rw [if_neg fits, ih followed]

/-- A pathname that leads to a place leads there in every tree with the same directories and more. -/
theorem Covers.place?_eq (covers : later.Covers tree) (located : tree.place? workingDirectory path = .ok place) :
    later.place? workingDirectory path = .ok place := by
  unfold place? at located ⊢
  split at located
  · cases located
  · next plain =>
    rw [if_neg plain]
    split at located
    · cases located
    · next filled =>
      rw [if_neg filled]
      exact covers.follow_eq located

theorem Covers.checkAbove_eq (covers : later.Covers tree) (above : tree.checkAbove place = .ok ()) :
    later.checkAbove place = .ok () := by
  unfold checkAbove at above ⊢
  split at above
  · next directory => rw [covers _ directory]
  · cases above
  · cases above

/-! What a change of a tree does -/

/-- A change of a file puts a file where no directory stands. -/
theorem exists_of_update {change : Option String → Option String}
    (updated : tree.update workingDirectory path change = .ok later) :
    ∃ place held, tree.place? workingDirectory path = .ok place ∧ tree.checkAbove place = .ok () ∧
      tree.entry? place ≠ some .directory ∧ later = tree.put place (.file (change held)) := by
  obtain ⟨place, located, updated⟩ := bind_eq_ok_iff.mp updated
  obtain ⟨⟨⟩, above, updated⟩ := bind_eq_ok_iff.mp updated
  split at updated
  · cases updated
  · next content held =>
    cases updated
    exact ⟨place, content, located, above, by simp [held], rfl⟩
  · next missing =>
    cases updated
    exact ⟨place, some "", located, above, by simp [missing], rfl⟩

/-- A directory is made at a place where nothing stands. -/
theorem exists_of_makeDirectory (made : tree.makeDirectory workingDirectory path = .ok later) :
    ∃ place text, tree.place? workingDirectory text = .ok place ∧ tree.entry? place = none ∧
      later = tree.put place .directory := by
  obtain ⟨place, located, made⟩ := bind_eq_ok_iff.mp made
  obtain ⟨_, _, made⟩ := bind_eq_ok_iff.mp made
  split at made
  · cases made
  · next missing =>
    cases made
    exact ⟨place, _, located, missing, rfl⟩

/-! The last name of a place -/

/-- The last piece of a pathname, where it is a name, is the last name of the place. -/
theorem getLast?_of_follow {pieces : List String} {name : String} (filled : name ≠ "") (here : name ≠ ".")
    (up : name ≠ "..") (followed : tree.follow start (pieces ++ [name]) = .ok place) :
    place.getLast? = some name := by
  induction pieces generalizing start with
  | nil =>
    rw [List.nil_append, follow] at followed
    split at followed
    · cases followed
    · cases followed
    · rw [if_neg (by simp [filled, here, String.isEmpty_iff]), if_neg (by simpa using up)] at followed
      split at followed
      · cases followed
      · cases followed
        exact List.getLast?_concat
  | cons piece rest ih =>
    rw [List.cons_append, follow] at followed
    split at followed
    · cases followed
    · cases followed
    · split at followed
      · exact ih followed
      · split at followed
        · exact ih followed
        · split at followed
          · cases followed
          · exact ih followed

/-- An ending of a text without separators is the ending of its last piece. -/
theorem exists_last_splitAt {separator : Char} {ending : List Char} (apart : separator ∉ ending) (front : List Char) :
    ∃ pieces last, splitAt separator (front ++ ending) = pieces ++ [last] ∧ ending <:+ last := by
  induction front with
  | nil =>
    exact ⟨[], ending, splitAt_of_notMem apart, List.suffix_refl ending⟩
  | cons c rest ih =>
    obtain ⟨pieces, last, split, ends⟩ := ih
    rw [splitAt] at split ⊢
    rw [List.cons_append, splitBy, split]
    by_cases marked : c = separator
    · exact ⟨[] :: pieces, last, by simp [marked], ends⟩
    · rw [if_neg (by simpa using marked)]
      cases pieces with
      | nil => exact ⟨[], c :: last, rfl, ends.trans (List.suffix_cons c last)⟩
      | cons piece more => exact ⟨(c :: piece) :: more, last, rfl, ends⟩

/-- A pathname with an ending that is part of a name leads to a place whose last name has that ending. -/
theorem exists_getLast?_of_place? {ending : List Char} (apart : '/' ∉ ending) (long : 2 < ending.length)
    (ends : ending <:+ path.toList) (located : tree.place? workingDirectory path = .ok place) :
    ∃ name, place.getLast? = some name ∧ ending <:+ name.toList := by
  obtain ⟨front, whole⟩ := ends
  obtain ⟨others, last, split, inside⟩ := exists_last_splitAt apart front
  have pieces : pieces path = others.map String.ofList ++ [String.ofList last] := by
    rw [FileTree.pieces, ← whole, split, List.map_append]
    rfl
  have length : 2 < last.length := Nat.lt_of_lt_of_le long inside.length_le
  have different {text : String} (short : text.length ≤ 2) : String.ofList last ≠ text := by
    rintro rfl
    rw [String.length_ofList] at short
    omega
  unfold place? at located
  split at located
  · cases located
  · split at located
    · cases located
    · rw [pieces] at located
      refine ⟨String.ofList last, ?_, by rwa [String.toList_ofList]⟩
      exact getLast?_of_follow (different (by decide)) (different (by decide)) (different (by decide)) located

end FileTree
end Runbook

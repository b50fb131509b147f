import Mathlib.Tactic.ByContra
import Mathlib.Tactic.SplitIfs
import Runbook.Proofs.Files.Tree
import Runbook.Text.Utf8

/-!
The entries of a directory. The pathname of an entry is that of its directory with the name behind it: it leads to the
entry wherever the directory is, and the name can be read off it. A directory names each of its entries once, and names
are in the order of their octets.
-/

namespace Runbook

open Runbook.Text

namespace Text

/-! The order of texts -/

/-- The octets of a greater character are greater, whatever follows. -/
theorem octetsOf_append_lt {c d : Char} (before : c < d) (rest others : List Nat) :
    octetsOf c ++ rest < octetsOf d ++ others := by
  have less : c.toNat < d.toNat := before
  unfold octetsOf
  generalize c.toNat = n at less ⊢
  generalize d.toNat = m at less ⊢
  dsimp only
  split_ifs <;> simp only [List.cons_append, List.nil_append, List.cons_lt_cons_iff] <;> omega

theorem octetsOf_ne_nil (c : Char) : octetsOf c ≠ [] := by
  unfold octetsOf
  dsimp only
  split_ifs <;> exact List.cons_ne_nil _ _

theorem octets_lt_of_lt {first second : List Char} (before : first < second) : octets first < octets second := by
  induction before with
  | @nil d rest =>
    obtain ⟨octet, more, whole⟩ := List.exists_cons_of_ne_nil (octetsOf_ne_nil d)
    show [] < octetsOf d ++ octets rest
    rw [whole]
    exact List.nil_lt_cons _ _
  | cons _ ih => exact List.append_left_lt ih
  | rel less => exact octetsOf_append_lt less _ _

/-- Texts are in the order of their octets. -/
theorem octets_lt_iff {first second : String} : octets first.toList < octets second.toList ↔ first < second := by
  refine ⟨fun before => ?_, octets_lt_of_lt⟩
  by_contra behind
  rcases Decidable.em (second < first) with later | level
  · exact List.lt_asymm before (octets_lt_of_lt later)
  · obtain rfl := String.le_antisymm level behind
    exact List.lt_irrefl _ before

end Text

namespace FileTree

variable {tree : FileTree} {workingDirectory place start : Place} {entry : FileEntry} {path name : String}

/-- A text that an entry of a directory can have as its name. -/
structure IsEntryName (name : String) : Prop where
  filled : name ≠ ""
  notHere : name ≠ "."
  notAbove : name ≠ ".."
  apart : '/' ∉ name.toList
  clean : '\x00' ∉ name.toList
  fits : name.utf8ByteSize ≤ nameLimit

instance (name : String) : Decidable (IsEntryName name) :=
  decidable_of_iff (name ≠ "" ∧ name ≠ "." ∧ name ≠ ".." ∧ '/' ∉ name.toList ∧ '\x00' ∉ name.toList ∧
      name.utf8ByteSize ≤ nameLimit)
    ⟨fun ⟨filled, notHere, notAbove, apart, clean, fits⟩ => ⟨filled, notHere, notAbove, apart, clean, fits⟩,
      fun isName => ⟨isName.filled, isName.notHere, isName.notAbove, isName.apart, isName.clean, isName.fits⟩⟩

/-- A tree as it can be on a machine: no two entries stand at one place, the root is no entry, and each entry and each
directory on the way to it has a name. -/
structure Proper (tree : FileTree) : Prop where
  single : (tree.entries.map Prod.fst).Nodup
  named : ∀ held ∈ tree.entries, held.1 ≠ [] ∧ ∀ name ∈ held.1, IsEntryName name

/-! Names -/

theorem entry?_concat (tree : FileTree) (place : Place) (name : String) :
    tree.entry? (place ++ [name]) = tree.entries.lookup (place ++ [name]) := by
  rw [FileTree.entry?,
    List.isEmpty_eq_false_iff.mpr (List.append_ne_nil_of_right_ne_nil place (List.cons_ne_nil name []))]
  rfl

/-- What an entry is called in the directory at a place. -/
theorem name_eq_some_iff {held : Place} :
    (if held.dropLast == place then held.getLast? else none) = some name ↔ held = place ++ [name] := by
  constructor
  · intro called
    split at called
    · next below =>
      rw [← eq_of_beq below]
      exact (List.dropLast_append_getLast? name called).symm
    · cases called
  · rintro rfl
    simp

/-- The directory at a place names exactly what stands below it. -/
theorem mem_namesAt_iff : name ∈ tree.namesAt place ↔ (tree.entry? (place ++ [name])).isSome = true := by
  rw [entry?_concat, List.lookup_isSome_iff, namesAt, List.mem_filterMap]
  refine exists_congr fun held => and_congr_right fun _ => ?_
  rw [beq_iff_eq, eq_comm (a := place ++ [name])]
  exact name_eq_some_iff

/-- A directory names nothing twice. -/
theorem Proper.nodup_namesAt (proper : tree.Proper) (place : Place) : (tree.namesAt place).Nodup := by
  have apart : tree.entries.Pairwise fun first second => first.1 ≠ second.1 := List.pairwise_map.mp proper.single
  refine List.pairwise_filterMap.mpr (apart.imp fun {first second} different name called other named same => ?_)
  subst same
  exact different ((name_eq_some_iff.mp called).trans (name_eq_some_iff.mp named).symm)

theorem Proper.isEntryName (proper : tree.Proper) (found : tree.entry? (place ++ [name]) = some entry) :
    IsEntryName name := by
  rw [entry?_concat, List.lookup_eq_some_iff] at found
  obtain ⟨before, after, split, -⟩ := found
  exact (proper.named (place ++ [name], entry) (by simp [split])).2 name (by simp)

/-! The order of the entries -/

/-- Where no two entries stand at one place, an entry stands where it is found. -/
theorem lookup_eq_some_iff {entries : List (Place × FileEntry)} (single : (entries.map Prod.fst).Nodup) :
    entries.lookup place = some entry ↔ (place, entry) ∈ entries := by
  rw [List.lookup_eq_some_iff]
  constructor
  · rintro ⟨before, after, rfl, -⟩
    exact List.mem_append_right before List.mem_cons_self
  · intro member
    obtain ⟨before, after, rfl⟩ := List.append_of_mem member
    refine ⟨before, after, rfl, fun other inside => ?_⟩
    rw [List.map_append, List.nodup_append] at single
    have apart := single.2.2 other.1 (List.mem_map_of_mem inside) place List.mem_cons_self
    simpa using apart.symm

/-- The entries of a tree in another order make up a tree with the same entry at each place. -/
theorem Proper.of_perm (proper : tree.Proper) {entries : List (Place × FileEntry)}
    (perm : entries.Perm tree.entries) :
    Proper ⟨entries⟩ ∧ ∀ place, entry? ⟨entries⟩ place = tree.entry? place := by
  have single : (entries.map Prod.fst).Nodup := (perm.map Prod.fst).nodup_iff.mpr proper.single
  refine ⟨⟨single, fun held member => proper.named held (perm.mem_iff.mp member)⟩, fun place => ?_⟩
  unfold entry?
  split
  · rfl
  · refine Option.ext fun entry => ?_
    rw [lookup_eq_some_iff single, lookup_eq_some_iff proper.single, perm.mem_iff]

/-! Trees that grow -/

theorem Proper.put (proper : tree.Proper) (below : place ≠ []) (named : ∀ name ∈ place, IsEntryName name)
    (entry : FileEntry) : (tree.put place entry).Proper := by
  unfold FileTree.put
  split
  · have key (held : Place × FileEntry) : (if held.1 == place then (place, entry) else held).1 = held.1 := by
      split
      · next here => exact (eq_of_beq here).symm
      · rfl
    refine ⟨?_, fun held member => ?_⟩
    · rw [List.map_map]
      have keys : (Prod.fst ∘ fun held : Place × FileEntry => if held.1 == place then (place, entry) else held) =
          Prod.fst := funext key
      rw [keys]
      exact proper.single
    · obtain ⟨other, inside, rfl⟩ := List.mem_map.mp member
      rw [key]
      exact proper.named other inside
  · next missing =>
    have fresh : place ∉ tree.entries.map Prod.fst := by
      intro member
      obtain ⟨held, inside, rfl⟩ := List.mem_map.mp member
      exact missing (List.lookup_isSome_iff.mpr ⟨held, inside, beq_self_eq_true held.1⟩)
    refine ⟨?_, fun held member => ?_⟩
    · rw [List.map_append, List.nodup_append]
      refine ⟨proper.single, List.pairwise_singleton _ _, fun key inside other last same => fresh ?_⟩
      obtain rfl := List.mem_singleton.mp last
      exact same ▸ inside
    · rcases List.mem_append.mp member with before | last
      · exact proper.named held before
      · obtain rfl := List.mem_singleton.mp last
        exact ⟨below, named⟩

/-- Pieces without slashes lead from names to names. -/
theorem isEntryName_of_follow {pieces : List String}
    (plain : ∀ piece ∈ pieces, '/' ∉ piece.toList ∧ '\x00' ∉ piece.toList)
    (named : ∀ name ∈ start, IsEntryName name) (followed : tree.follow start pieces = .ok place) :
    ∀ name ∈ place, IsEntryName name := by
  induction pieces generalizing start with
  | nil =>
    cases followed
    exact named
  | cons piece rest ih =>
    obtain ⟨⟨apart, clean⟩, later⟩ := List.forall_mem_cons.mp plain
    rw [follow] at followed
    split at followed
    · cases followed
    · cases followed
    · split at followed
      · exact ih later named followed
      · next solid =>
        split at followed
        · exact ih later (fun name member => named name (List.dropLast_subset start member)) followed
        · next down =>
          split at followed
          · cases followed
          · next fits =>
            have filled : piece ≠ "" ∧ piece ≠ "." := by simpa using solid
            refine ih later (fun name member => ?_) followed
            rcases List.mem_append.mp member with before | last
            · exact named name before
            · obtain rfl := List.mem_singleton.mp last
              exact ⟨filled.1, filled.2, by simpa using down, apart, clean, Nat.not_lt.mp fits⟩

/-! Pathnames -/

/-- Pieces are followed one after another. -/
theorem follow_append (tree : FileTree) (start : Place) (front back : List String) :
    tree.follow start (front ++ back) = tree.follow start front >>= fun place => tree.follow place back := by
  induction front generalizing start with
  | nil => rfl
  | cons piece rest ih =>
    rw [List.cons_append, follow, follow]
    split
    · rfl
    · rfl
    · split
      · exact ih start
      · split
        · exact ih _
        · split
          · rfl
          · exact ih _

/-- A name stands behind a slash in the pathname of an entry, with the pathname of the directory before it. -/
theorem exists_toList_join (filled : path ≠ "") (apart : '/' ∉ name.toList) :
    ∃ front, (Pathname.join path name).toList = front ++ '/' :: name.toList ∧
      (path.toList = front ∨ path.toList = front ++ ['/']) := by
  have relative : Pathname.isAbsolute name = false :=
    beq_eq_false_iff_ne.mpr fun slash => apart (List.mem_of_mem_head? slash)
  have empty : path.isEmpty = false := by simpa using filled
  unfold Pathname.join
  rw [relative, empty, if_neg (by simp)]
  split
  · next ends =>
    refine ⟨path.toList.dropLast, ?_, .inr (List.dropLast_append_getLast? '/' (eq_of_beq ends)).symm⟩
    rw [String.toList_append]
    conv_lhs => rw [← List.dropLast_append_getLast? '/' (eq_of_beq ends)]
    rw [List.append_assoc, List.singleton_append]
  · exact ⟨path.toList, by simp, .inl rfl⟩

/-- Idle pieces lead nowhere else. -/
theorem follow_idle (followed : tree.follow start [""] = .ok place) : start = place := by
  rw [follow] at followed
  split at followed
  · cases followed
  · cases followed
  · cases followed
    rfl

/-- A pathname leads to a place. -/
theorem place?_eq_ok_iff : tree.place? workingDirectory path = .ok place ↔
    '\x00' ∉ path.toList ∧ path ≠ "" ∧
      tree.follow (if Pathname.isAbsolute path then [] else workingDirectory) (pieces path) = .ok place := by
  unfold place?
  by_cases zero : '\x00' ∈ path.toList
  · simp [zero]
  · by_cases filled : path = "" <;> simp [zero, filled]

/-- A pathname leads from names to names. -/
theorem isEntryName_of_place? (named : ∀ name ∈ workingDirectory, IsEntryName name)
    (located : tree.place? workingDirectory path = .ok place) : ∀ name ∈ place, IsEntryName name := by
  obtain ⟨clean, -, followed⟩ := place?_eq_ok_iff.mp located
  refine isEntryName_of_follow (fun piece member => ?_) ?_ followed
  · obtain ⟨text, inside, rfl⟩ := List.mem_map.mp member
    rw [String.toList_ofList]
    exact ⟨not_mem_of_mem_splitAt inside, fun zero => clean (mem_of_mem_splitAt inside zero)⟩
  · split
    · exact nofun
    · exact named

/-- A tree stays proper when a file is written. -/
theorem Proper.update {later : FileTree} {change : Option String → Option String} (proper : tree.Proper)
    (named : ∀ name ∈ workingDirectory, IsEntryName name)
    (updated : tree.update workingDirectory path change = .ok later) : later.Proper := by
  obtain ⟨place, held, located, -, free, rfl⟩ := exists_of_update updated
  have below : place ≠ [] := by
    rintro rfl
    exact free rfl
  exact proper.put below (isEntryName_of_place? named located) _

/-- A tree stays proper when a directory is made. -/
theorem Proper.makeDirectory {later : FileTree} (proper : tree.Proper)
    (named : ∀ name ∈ workingDirectory, IsEntryName name)
    (made : tree.makeDirectory workingDirectory path = .ok later) : later.Proper := by
  obtain ⟨place, text, located, missing, rfl⟩ := exists_of_makeDirectory made
  have below : place ≠ [] := by
    rintro rfl
    cases missing
  exact proper.put below (isEntryName_of_place? named located) _

theorem follow_name (isName : IsEntryName name) (directory : tree.entry? place = some .directory) :
    tree.follow place [name] = .ok (place ++ [name]) := by
  have fits := Nat.not_lt.mpr isName.fits
  rw [follow, directory]
  simp [isName.filled, isName.notHere, isName.notAbove, fits, follow]

/-- The pathname of an entry starts where that of the directory does. -/
theorem isAbsolute_join (filled : path ≠ "") (apart : '/' ∉ name.toList) :
    Pathname.isAbsolute (Pathname.join path name) = Pathname.isAbsolute path := by
  obtain ⟨front, whole, same | same⟩ := exists_toList_join filled apart
  · have some : front ≠ [] := by simpa [← same] using filled
    rw [Pathname.isAbsolute, Pathname.isAbsolute, whole, same, List.head?_append_of_ne_nil _ some]
  · rw [Pathname.isAbsolute, Pathname.isAbsolute, whole, same]
    cases front <;> simp

/-- The name is the last piece of the pathname of an entry, and the pieces before it are those of the directory, but
that a slash at the end has nothing behind it. -/
theorem exists_pieces_join (filled : path ≠ "") (apart : '/' ∉ name.toList) :
    ∃ front, pieces (Pathname.join path name) = front ++ [name] ∧ (pieces path = front ∨ pieces path = front ++ [""]) := by
  obtain ⟨front, whole, ends⟩ := exists_toList_join filled apart
  refine ⟨(splitAt '/' front).map String.ofList, ?_, ends.imp (fun same => ?_) fun same => ?_⟩
  · rw [pieces, whole, splitAt_append, splitAt_of_notMem apart, List.map_append, List.map_singleton,
      String.ofList_toList]
  · rw [pieces, same]
  · rw [pieces, same, splitAt_append, List.map_append]
    rfl

theorem notMem_join {c : Char} (other : c ≠ '/') (filled : path ≠ "") (apart : '/' ∉ name.toList)
    (before : c ∉ path.toList) (behind : c ∉ name.toList) : c ∉ (Pathname.join path name).toList := by
  obtain ⟨front, whole, ends⟩ := exists_toList_join filled apart
  rw [whole, List.mem_append, List.mem_cons]
  rintro (inFront | slash | inName)
  · refine before ?_
    rcases ends with same | same <;> simp [same, inFront]
  · exact other slash
  · exact behind inName

theorem join_ne_empty (filled : path ≠ "") (apart : '/' ∉ name.toList) : Pathname.join path name ≠ "" := by
  obtain ⟨front, whole, -⟩ := exists_toList_join filled apart
  intro empty
  rw [empty] at whole
  cases front <;> cases whole

/-- The pathname of an entry leads to the place of the entry. -/
theorem place?_join (isName : IsEntryName name) (located : tree.place? workingDirectory path = .ok place)
    (directory : tree.entry? place = some .directory) :
    tree.place? workingDirectory (Pathname.join path name) = .ok (place ++ [name]) := by
  obtain ⟨clean, filled, followed⟩ := place?_eq_ok_iff.mp located
  obtain ⟨front, cut, ends⟩ := exists_pieces_join filled isName.apart
  have toDirectory : tree.follow (if Pathname.isAbsolute path then [] else workingDirectory) front = .ok place := by
    rcases ends with same | same
    · rwa [← same]
    · rw [same, follow_append] at followed
      obtain ⟨other, reached, rest⟩ := bind_eq_ok_iff.mp followed
      rwa [← follow_idle rest]
  refine place?_eq_ok_iff.mpr ⟨notMem_join (by decide) filled isName.apart clean isName.clean,
    join_ne_empty filled isName.apart, ?_⟩
  rw [isAbsolute_join filled isName.apart, cut, follow_append, toDirectory]
  exact follow_name isName directory

/-- The pathname of an entry finds the entry. -/
theorem find?_join (isName : IsEntryName name) (located : tree.place? workingDirectory path = .ok place)
    (directory : tree.entry? place = some .directory) (found : tree.entry? (place ++ [name]) = some entry) :
    tree.find? workingDirectory (Pathname.join path name) = .ok entry := by
  simp [find?, place?_join isName located directory, found, bind, Except.bind, pure, Except.pure]

end FileTree

namespace Pathname

variable {path name : String} {front last : List Char}

/-! The name at the end of a pathname -/

/-- A text ends in a name if the name is all of it or stands behind a slash. -/
def EndsIn (last text : List Char) : Prop := text = last ∨ ∃ front, text = front ++ '/' :: last

theorem cutLast_fst (apart : '/' ∉ last) {text : List Char} (ends : EndsIn last text) : (cutLast text).1 = last := by
  have behind : '/' ∉ last.reverse := fun member => apart (List.mem_reverse.mp member)
  unfold cutLast
  rcases ends with rfl | ⟨front, rfl⟩
  · cases cut : cut? '/' text.reverse with
    | none => rfl
    | some parts => exact absurd (by simp [(eq_append_of_cut? cut).1]) behind
  · rw [List.reverse_append, List.reverse_cons, List.append_assoc, List.singleton_append, cut?_append behind]
    exact List.reverse_reverse last

/-- Nothing is cut off behind a name. -/
theorem trimmed_eq_self (apart : '/' ∉ last) (isName : isIdle last = false) {text : List Char}
    (ends : EndsIn last text) : trimmed text = text := by
  unfold trimmed
  cases text with
  | nil => rfl
  | cons c rest =>
    rw [List.length_cons, dropIdle]
    dsimp only
    rw [cutLast_fst apart ends, isName]
    rfl

/-- What is taken from the front of a pathname does not reach a name behind a slash. -/
theorem endsIn_front {text : List Char} (whole : text = front ++ '/' :: last) :
    EndsIn last (Pathname.front text).2 := by
  unfold Pathname.front
  split
  · cases front with
    | nil => exact .inl (List.cons.inj whole).2
    | cons c rest => exact .inr ⟨rest, (List.cons.inj whole).2⟩
  · cases front with
    | nil => cases whole
    | cons c rest => exact absurd (List.cons.inj whole).2 (by simp)
  · cases front with
    | nil => cases whole
    | cons c rest => exact .inr ⟨rest, (List.cons.inj whole).2⟩
  · exact .inr ⟨front, whole⟩

/-- The name of an entry is the name in its pathname. -/
theorem name?_join (isName : FileTree.IsEntryName name) (filled : path ≠ "") : name? (join path name) = some name := by
  obtain ⟨before, whole, -⟩ := FileTree.exists_toList_join filled isName.apart
  have some : name.toList ≠ [] := by simpa using isName.filled
  have ends := endsIn_front whole
  have named : isIdle name.toList = false := by
    have other : name.toList ≠ ['.'] := fun same => isName.notHere (String.toList_injective same)
    simp [isIdle, isName.filled, other]
  have up : name.toList ≠ ['.', '.'] := fun same => isName.notAbove (String.toList_injective same)
  unfold name?
  rw [trimmed_eq_self isName.apart named ends]
  dsimp only
  rw [cutLast_fst isName.apart ends]
  simp [isName.filled, up]

end Pathname

end Runbook

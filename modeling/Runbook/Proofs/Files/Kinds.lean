import Runbook.Proofs.Files.Directory
import Runbook.Proofs.Host.Files

/-!
What the making of directories depends on and what it leaves alone. Where pathnames lead, and which directories can
be made, is decided by the kinds of the entries of a tree and not by what its files hold; and directories are made
without a change to any file. Where a directory is already, nothing is made.
-/

namespace Runbook

open Runbook.Text

namespace FileTree

variable {tree first second : FileTree} {workingDirectory place other start : Place} {entry : FileEntry} {path : String}

/-! What files hold -/

/-- What the file at a place holds, if one stands there. -/
def fileAt? (tree : FileTree) (place : Place) : Option (Option String) :=
  match tree.entry? place with
  | some (.file content) => some content
  | _ => none

theorem fileAt?_put_self {content : Option String} (named : place ≠ []) :
    (tree.put place (.file content)).fileAt? place = some content := by
  rw [fileAt?, entry?_put_self named]

theorem fileAt?_put_ne (apart : other ≠ place) : (tree.put place entry).fileAt? other = tree.fileAt? other := by
  rw [fileAt?, entry?_put_ne apart, fileAt?]

/-- A directory that is made where nothing stands is no file. -/
theorem fileAt?_put_directory (missing : tree.entry? place = none) (other : Place) :
    (tree.put place .directory).fileAt? other = tree.fileAt? other := by
  by_cases same : other = place
  · have named : place ≠ [] := by
      rintro rfl
      cases missing
    rw [same, fileAt?, entry?_put_self named, fileAt?, missing]
  · exact fileAt?_put_ne same

/-! Trees with entries of the same kinds -/

/-- Two trees have an entry of the same kind, or none, at each place. -/
def Alike (first second : FileTree) : Prop :=
  ∀ place, (first.entry? place).map FileEntry.kind = (second.entry? place).map FileEntry.kind

namespace Alike

theorem put (alike : first.Alike second) (place : Place) (entry : FileEntry) :
    (first.put place entry).Alike (second.put place entry) := by
  intro other
  by_cases same : other = place
  · subst same
    by_cases named : other = []
    · subst named
      rfl
    · rw [entry?_put_self named, entry?_put_self named]
  · rw [entry?_put_ne same, entry?_put_ne same, alike other]

/-- A file is of the same kind whatever it holds. -/
theorem put_file {content text : Option String} (held : tree.entry? place = some (.file content)) :
    (tree.put place (.file text)).Alike tree := by
  intro other
  by_cases same : other = place
  · have named : place ≠ [] := by
      rintro rfl
      cases held
    rw [same, entry?_put_self named, held]
    rfl
  · rw [entry?_put_ne same]

variable (alike : first.Alike second)
include alike

theorem eq_none_iff : first.entry? place = none ↔ second.entry? place = none := by
  rw [← Option.map_eq_none_iff (f := FileEntry.kind), alike place, Option.map_eq_none_iff]

theorem directory_iff : first.entry? place = some .directory ↔ second.entry? place = some .directory := by
  have kind (entry : Option FileEntry) : entry.map FileEntry.kind = some .directory ↔ entry = some .directory := by
    rcases entry with _ | _ | _ <;> simp [FileEntry.kind]
  rw [← kind, alike place, kind]

/-- What stands at a place is nothing, a file or a directory in both trees. -/
theorem cases_entry? (place : Place) : (first.entry? place = none ∧ second.entry? place = none) ∨
    (first.entry? place = some .directory ∧ second.entry? place = some .directory) ∨
      ∃ content text, first.entry? place = some (.file content) ∧ second.entry? place = some (.file text) := by
  have same := alike place
  cases one : first.entry? place with
  | none => exact .inl ⟨rfl, alike.eq_none_iff.mp one⟩
  | some entry =>
    cases entry with
    | directory => exact .inr (.inl ⟨rfl, alike.directory_iff.mp one⟩)
    | file content =>
      cases two : second.entry? place with
      | none => simp [one, two] at same
      | some entry =>
        cases entry with
        | directory => simp [one, two, FileEntry.kind] at same
        | file text => exact .inr (.inr ⟨content, text, rfl, rfl⟩)

theorem follow_eq (start : Place) (pieces : List String) : first.follow start pieces = second.follow start pieces := by
  induction pieces generalizing start with
  | nil => rfl
  | cons piece rest ih =>
    rw [follow, follow]
    rcases alike.cases_entry? start with ⟨one, two⟩ | ⟨one, two⟩ | ⟨content, text, one, two⟩
    · rw [one, two]
    · rw [one, two]
      dsimp only
      rw [ih, ih, ih]
    · rw [one, two]

theorem place?_eq (workingDirectory : Place) (path : String) :
    first.place? workingDirectory path = second.place? workingDirectory path := by
  rw [place?, place?, alike.follow_eq]

theorem checkAbove_eq (place : Place) : first.checkAbove place = second.checkAbove place := by
  unfold checkAbove
  rcases alike.cases_entry? place.dropLast with ⟨one, two⟩ | ⟨one, two⟩ | ⟨content, text, one, two⟩ <;> rw [one, two]

/-- A directory is made in both trees or in none of them. -/
theorem makeDirectory (workingDirectory : Place) (path : String) :
    (∃ error, first.makeDirectory workingDirectory path = .error error ∧
        second.makeDirectory workingDirectory path = .error error) ∨
      ∃ one two, first.makeDirectory workingDirectory path = .ok one ∧
        second.makeDirectory workingDirectory path = .ok two ∧ one.Alike two := by
  unfold FileTree.makeDirectory
  rw [alike.place?_eq]
  cases located : second.place? workingDirectory (String.ofList (makeDirectory.dropSlashes path.toList)) with
  | error error => exact .inl ⟨error, rfl, rfl⟩
  | ok place =>
    dsimp only [bind, Except.bind]
    rw [alike.checkAbove_eq]
    cases above : second.checkAbove place with
    | error error => exact .inl ⟨error, rfl, rfl⟩
    | ok =>
      dsimp only
      rcases alike.cases_entry? place with ⟨one, two⟩ | ⟨one, two⟩ | ⟨content, text, one, two⟩
      · rw [one, two]
        exact .inr ⟨_, _, rfl, rfl, alike.put place .directory⟩
      · rw [one, two]
        exact .inl ⟨_, rfl, rfl⟩
      · rw [one, two]
        exact .inl ⟨_, rfl, rfl⟩

/-- A pathname leads to the same kind of entry in both trees. -/
theorem kind_find? (workingDirectory : Place) (path : String) :
    (first.find? workingDirectory path).map FileEntry.kind =
      (second.find? workingDirectory path).map FileEntry.kind := by
  unfold find?
  rw [alike.place?_eq]
  cases second.place? workingDirectory path with
  | error error => rfl
  | ok place =>
    dsimp only [bind, Except.bind]
    rcases alike.cases_entry? place with ⟨one, two⟩ | ⟨one, two⟩ | ⟨content, text, one, two⟩
    · rw [one, two]
    · rw [one, two]
    · rw [one, two]
      rfl

end Alike

/-! Directories that are there -/

/-- A slash at the end of a pathname leads nowhere else. -/
theorem place?_of_slash {text : List Char} (filled : text ≠ [])
    (located : tree.place? workingDirectory (String.ofList (text ++ ['/'])) = .ok place) :
    tree.place? workingDirectory (String.ofList text) = .ok place := by
  obtain ⟨clean, -, followed⟩ := place?_eq_ok_iff.mp located
  rw [String.toList_ofList] at clean
  have absolute : Pathname.isAbsolute (String.ofList (text ++ ['/'])) = Pathname.isAbsolute (String.ofList text) := by
    rw [Pathname.isAbsolute, Pathname.isAbsolute, String.toList_ofList, String.toList_ofList,
      List.head?_append_of_ne_nil _ filled]
  have cut : pieces (String.ofList (text ++ ['/'])) = pieces (String.ofList text) ++ [""] := by
    rw [pieces, pieces, String.toList_ofList, String.toList_ofList, splitAt_append, List.map_append]
    rfl
  rw [absolute, cut, follow_append] at followed
  obtain ⟨before, reached, rest⟩ := bind_eq_ok_iff.mp followed
  refine place?_eq_ok_iff.mpr ⟨?_, by simpa using filled, by rwa [← follow_idle rest]⟩
  rw [String.toList_ofList]
  exact fun zero => clean (List.mem_append_left _ zero)

/-- Nor do all the slashes there. -/
theorem place?_dropSlashes (located : tree.place? workingDirectory path = .ok place) :
    tree.place? workingDirectory (String.ofList (makeDirectory.dropSlashes path.toList)) = .ok place := by
  have idle (text : List Char) (count : Nat) (filled : text ≠ [])
      (led : tree.place? workingDirectory (String.ofList (text ++ List.replicate count '/')) = .ok place) :
      tree.place? workingDirectory (String.ofList text) = .ok place := by
    induction count with
    | zero => rwa [List.replicate_zero, List.append_nil] at led
    | succ count ih =>
      rw [List.replicate_succ', ← List.append_assoc] at led
      exact ih (place?_of_slash (List.append_ne_nil_of_left_ne_nil filled _) led)
  unfold makeDirectory.dropSlashes
  dsimp only
  split
  · rwa [String.ofList_toList]
  · next filled =>
    let slashes := path.toList.rtakeWhile (· == '/')
    have alone : slashes = List.replicate slashes.length '/' :=
      List.eq_replicate_of_mem fun c member => by simpa using List.mem_rtakeWhile_imp member
    have whole : path.toList.rdropWhile (· == '/') ++ List.replicate slashes.length '/' = path.toList := by
      rw [← alone, List.rdropWhile_append_rtakeWhile]
    refine idle (path.toList.rdropWhile (· == '/')) slashes.length (by simpa using filled) ?_
    rwa [whole, String.ofList_toList]

/-- No directory is made where one is already. -/
theorem makeDirectory_eq_error (located : tree.place? workingDirectory path = .ok place)
    (above : tree.checkAbove place = .ok ()) (held : tree.entry? place = some .directory) :
    tree.makeDirectory workingDirectory path = .error .alreadyThere := by
  unfold FileTree.makeDirectory
  simp [place?_dropSlashes located, above, held, bind, Except.bind, throw, throwThe, MonadExceptOf.throw]

end FileTree

namespace Machine

open FileTree

variable {α β : Type} {machine : Machine} {path : String} {place : Place}

theorem makeDirectory_of_ok {later : FileTree}
    (made : machine.tree.makeDirectory machine.workingDirectory path = .ok later) :
    machine.run (Files.makeDirectory path) = (.ok (), { machine with tree := later }) := change_of_ok made

theorem makeDirectory_of_error {error : FileError}
    (failed : machine.tree.makeDirectory machine.workingDirectory path = .error error) :
    machine.run (Files.makeDirectory path) = (.error error, machine) := change_of_error failed

theorem run_isDirectory (machine : Machine) (path : String) : machine.run (Files.isDirectory path) =
    (((machine.tree.find? machine.workingDirectory path).map FileEntry.kind).toOption == some .directory, machine) :=
  rfl

/-- Two machines with files of the same kinds, looked up from the same working directory. -/
structure FilesAlike (first second : Machine) : Prop where
  workingDirectory : first.workingDirectory = second.workingDirectory
  tree : first.tree.Alike second.tree

/-- A computation goes the same way on machines with files of the same kinds, and leaves such machines. -/
def Agrees (computation : StateM Machine α) : Prop :=
  ∀ first second : Machine, first.FilesAlike second →
    (first.run computation).1 = (second.run computation).1 ∧
      (first.run computation).2.FilesAlike (second.run computation).2

namespace Agrees

theorem composes : Composes Agrees where
  pure _ _ _ alike := ⟨rfl, alike⟩
  bind {_ _ computation next} agrees further first second alike := by
    obtain ⟨result, after⟩ := agrees first second alike
    have one : first.run (computation >>= next) =
        (first.run computation).2.run (next (first.run computation).1) := rfl
    have two : second.run (computation >>= next) =
        (second.run computation).2.run (next (first.run computation).1) := by
      rw [result]
      rfl
    rw [one, two]
    exact further _ _ _ after

/-- What a computation comes to on a machine tells what it comes to on a machine with files of the same kinds. -/
theorem exists_run_eq {computation : StateM Machine α} (agrees : Agrees computation) {first second after : Machine}
    (alike : first.FilesAlike second) {value : α} (ran : second.run computation = (value, after)) :
    ∃ later, first.run computation = (value, later) ∧ later.FilesAlike after := by
  obtain ⟨result, later⟩ := agrees first second alike
  rw [ran] at result later
  exact ⟨(first.run computation).2, Prod.ext result rfl, later⟩

theorem makeDirectory (path : String) : Agrees (Files.makeDirectory path) := by
  intro first second alike
  rcases alike.tree.makeDirectory second.workingDirectory path with ⟨error, one, two⟩ | ⟨_, _, one, two, same⟩
  · rw [← alike.workingDirectory] at one
    rw [makeDirectory_of_error one, makeDirectory_of_error two]
    exact ⟨rfl, alike⟩
  · rw [← alike.workingDirectory] at one
    rw [makeDirectory_of_ok one, makeDirectory_of_ok two]
    exact ⟨rfl, alike.workingDirectory, same⟩

theorem isDirectory (path : String) : Agrees (Files.isDirectory path) := by
  intro first second alike
  rw [run_isDirectory, run_isDirectory, alike.tree.kind_find?, alike.workingDirectory]
  exact ⟨rfl, alike⟩

theorem makeDirectories (path : String) : Agrees (Files.makeDirectories path) :=
  composes.makeDirectories makeDirectory isDirectory path

end Agrees

/-- Making a directory leaves every file as it is. -/
theorem fileAt?_makeDirectory (machine : Machine) (path : String) (other : Place) :
    (machine.run (Files.makeDirectory path)).2.tree.fileAt? other = machine.tree.fileAt? other := by
  cases making : machine.tree.makeDirectory machine.workingDirectory path with
  | error error => rw [makeDirectory_of_error making]
  | ok grown =>
    obtain ⟨place, -, -, missing, rfl⟩ := exists_of_makeDirectory making
    rw [makeDirectory_of_ok making]
    exact fileAt?_put_directory missing other

/-- So does making all the directories of a pathname. -/
theorem fileAt?_makeDirectories (machine : Machine) (path : String) (other : Place) :
    (machine.run (Files.makeDirectories path)).2.tree.fileAt? other = machine.tree.fileAt? other := by
  have made (directory : String) : Maintains (fun later => later.tree.fileAt? other = machine.tree.fileAt? other)
      (Files.makeDirectory directory) := by
    intro later same
    have stays := fileAt?_makeDirectory later directory other
    -- The two applications are the same, but the check that they are would compute both.
    unfold run at stays
    rw [stays, same]
  exact Maintains.makeDirectories made path machine rfl

/-- A directory that is there is made without any change. -/
theorem makeDirectories_eq (located : machine.tree.place? machine.workingDirectory path = .ok place)
    (above : machine.tree.checkAbove place = .ok ()) (held : machine.tree.entry? place = some .directory) :
    machine.run (Files.makeDirectories path) = (.ok (), machine) := by
  have filled : path.isEmpty = false := by simpa using (place?_eq_ok_iff.mp located).2.1
  have refused : machine.run (Files.makeDirectory path) = (.error .alreadyThere, machine) :=
    makeDirectory_of_error (makeDirectory_eq_error located above held)
  have spared : machine.run (Files.unlessDirectory path .alreadyThere) = (.ok (), machine) := by
    have found : machine.tree.find? machine.workingDirectory path = .ok .directory := by
      simp [find?, located, held, bind, Except.bind, Pure.pure, Except.pure]
    have there : machine.run (Files.isDirectory path) = (true, machine) := by
      rw [run_isDirectory, found]
      rfl
    unfold Files.unlessDirectory
    rw [run_bind there]
    rfl
  unfold Files.makeDirectories
  rw [if_neg (by simp [filled])]
  unfold Files.makeBelow
  split <;> rw [run_bind refused] <;> exact spared

end Machine
end Runbook

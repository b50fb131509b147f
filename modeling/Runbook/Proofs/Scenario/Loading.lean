import Runbook.Proofs.Files.Directory
import Runbook.Proofs.Host.Files
import Runbook.Scenario.Load

/-!
Loading the scenarios of a directory. The files whose names end like those of scenarios are loaded in the order of their
names, all of them or none: what else stands in the directory does not matter, and neither does the order in which the
directory is listed.
-/

namespace Runbook.Scenario

open Machine FileTree Runbook.Text

variable {machine : Machine} {path name : String} {place : Place} {content : Option String}

/-! Names of scenario files -/

/-- A name that ends like those of scenario files. -/
def IsScenarioName (name : String) : Prop :=
  ∃ ending ∈ [".flow.md", ".flow", ".graph.yaml", ".graph.yml", ".graph.json"], ending.toList <:+ name.toList

theorem endsIn_iff {endings : List String} :
    endsIn endings name = true ↔ ∃ ending ∈ endings, ending.toList <:+ name.toList := by
  simp [endsIn, isSome_beforeBack?_iff]

theorem isListed_iff : isListed name = true ↔ IsScenarioName name := endsIn_iff

/-- A file that a search takes for a scenario has a notation. -/
theorem exists_formatOfName? (isScenario : IsScenarioName name) : ∃ format, formatOfName? name = some format := by
  unfold formatOfName?
  split
  · exact ⟨.graph, rfl⟩
  · next other =>
    have script : endsIn [".md", ".flow"] name = true := by
      obtain ⟨ending, member, ends⟩ := isScenario
      rw [endsIn_iff] at other ⊢
      rcases List.mem_append.mp (show ending ∈ [".flow.md", ".flow"] ++ graphEndings from member) with script | graph
      · rcases List.mem_cons.mp script with rfl | flow
        · exact ⟨".md", List.mem_cons_self, (by decide : ".md".toList <:+ ".flow.md".toList).trans ends⟩
        · exact ⟨ending, List.mem_cons_of_mem _ flow, ends⟩
      · exact absurd ⟨ending, graph, ends⟩ other
    rw [if_pos script]
    exact ⟨.script, rfl⟩

/-! One file -/

/-- What loading a file gives on a machine. -/
def loaded (machine : Machine) (path : String) : Except Failure Scenario := (machine.run (loadFile path)).1

/-- The scenario in a file whose text is read or not. -/
def ofReading (path : String) (format : Format) : Except FileError String → Except Failure Scenario
  | .error cause => .error ⟨"Failed to read scenario file: " ++ path, [cause.message]⟩
  | .ok text => (ofText path text format).map fun scenario => { scenario with source := some path }

theorem loaded_eq (machine : Machine) {format : Format} (known : formatOf? path = some format) :
    loaded machine path = ofReading path format (machine.tree.readText machine.workingDirectory path) := by
  unfold loaded loadFile
  rw [known]
  dsimp only
  rw [(Reads.readText path).run_bind]
  have read : (machine.run (Files.readText path)).1 = machine.tree.readText machine.workingDirectory path := rfl
  rw [read]
  cases machine.tree.readText machine.workingDirectory path <;> rfl

/-- A text that holds no scenario is told to be one that cannot be parsed. -/
theorem message_of_ofText {text : String} {format : Format} {failure : Failure}
    (failed : ofText path text format = .error failure) :
    failure.message = "Failed to parse flow " ++ path ∨ failure.message = "Failed to parse graph " ++ path := by
  cases format with
  | script =>
    obtain ⟨_, -, rfl⟩ := mapError_eq_error_iff.mp failed
    exact .inl rfl
  | graph =>
    obtain ⟨_, -, rfl⟩ := mapError_eq_error_iff.mp failed
    exact .inr rfl

/-- A file of a known notation that is not loaded cannot be read or parsed. -/
theorem message_of_ofReading {format : Format} {reading : Except FileError String} {failure : Failure}
    (failed : ofReading path format reading = .error failure) :
    failure.message ≠ "Unrecognised scenario file: " ++ path := by
  have first {text : String} (starts : text.toList.head? = some 'F') :
      text ++ path ≠ "Unrecognised scenario file: " ++ path := by
    intro same
    have heads := congrArg (fun text => text.toList.head?) same
    simp [starts] at heads
  cases reading with
  | error cause =>
    cases failed
    exact first rfl
  | ok text =>
    cases parsed : ofText path text format with
    | ok scenario =>
      rw [ofReading, parsed] at failed
      cases failed
    | error other =>
      rw [ofReading, parsed] at failed
      cases failed
      rcases message_of_ofText parsed with flow | graph
      · exact flow ▸ first rfl
      · exact graph ▸ first rfl

/-! Several files -/

/-- Files are loaded one after another, up to the first that fails. -/
theorem run_loadFiles (machine : Machine) (paths : List String) :
    (machine.run (loadFiles paths)).1 = paths.mapM (loaded machine) := by
  induction paths with
  | nil => rfl
  | cons path rest ih =>
    rw [loadFiles, (reads_loadFile path).run_bind, List.mapM_cons, ← ih]
    have first : (machine.run (loadFile path)).1 = loaded machine path := rfl
    rw [first]
    cases loaded machine path with
    | error failure => rfl
    | ok scenario =>
      dsimp only
      rw [(reads_loadFiles rest).run_bind]
      cases (machine.run (loadFiles rest)).1 <;> rfl

/-- A search lists the files among some names in a directory whose names are those of scenarios. -/
theorem run_listedFiles (machine : Machine) (directory : String) (names : List String) :
    (machine.run (listedFiles directory names)).1 = names.filter fun name =>
      isListed name && (machine.run (Files.isFile (Pathname.join directory name))).1 := by
  induction names with
  | nil => rfl
  | cons name rest ih =>
    rw [listedFiles, (reads_listedFiles directory rest).run_bind, ih, List.filter_cons]
    cases isListed name <;> rfl

/-- A file stands at a place. -/
def isFileAt (tree : FileTree) (place : Place) : Bool := (tree.entry? place).any (·.kind == .file)

theorem isFileAt_iff {tree : FileTree} :
    isFileAt tree place = true ↔ ∃ content, tree.entry? place = some (.file content) := by
  unfold isFileAt
  cases tree.entry? place with
  | none => simp
  | some entry => cases entry <;> simp [FileEntry.kind]

/-- The names of the scenario files in the directory at a place, in order. -/
def listing (tree : FileTree) (place : Place) : List String :=
  ((tree.namesAt place).filter fun name => isListed name && isFileAt tree (place ++ [name])).mergeSort
    fun first second => first ≤ second

theorem mem_listing_iff {tree : FileTree} : name ∈ listing tree place ↔
    IsScenarioName name ∧ ∃ content, tree.entry? (place ++ [name]) = some (.file content) := by
  rw [listing, List.mem_mergeSort, List.mem_filter, Bool.and_eq_true, isListed_iff, isFileAt_iff, mem_namesAt_iff]
  constructor
  · exact And.right
  · rintro ⟨isScenario, content, found⟩
    exact ⟨by rw [found]; rfl, isScenario, content, found⟩

/-- Names stand in increasing order of their octets, each of them once. -/
def Ascending (names : List String) : Prop :=
  names.Pairwise fun first second => octets first.toList < octets second.toList

instance (names : List String) : Decidable (Ascending names) :=
  inferInstanceAs (Decidable (names.Pairwise fun first second => octets first.toList < octets second.toList))

theorem ascending_listing {tree : FileTree} (proper : tree.Proper) (place : Place) :
    Ascending (listing tree place) := by
  have distinct : (listing tree place).Nodup :=
    (List.mergeSort_perm _ _).nodup_iff.mpr ((proper.nodup_namesAt place).filter _)
  have sorted : (listing tree place).Pairwise fun first second => first ≤ second := by
    refine (List.pairwise_mergeSort ?_ ?_ _).imp of_decide_eq_true
    · intro first second third
      simp only [decide_eq_true_eq]
      exact String.le_trans
    · intro first second
      simp only [Bool.or_eq_true, decide_eq_true_eq]
      exact String.le_total _ _
  refine (sorted.and distinct).imp fun {first second} both => octets_lt_iff.mpr ?_
  by_contra behind
  exact both.2 (String.le_antisymm both.1 behind)

/-- Ascending names are determined by which they are. -/
theorem Ascending.eq {first second : List String} (ascending : Ascending first) (also : Ascending second)
    (same : ∀ name, name ∈ first ↔ name ∈ second) : first = second := by
  have distinct {names : List String} (ascending : Ascending names) : names.Nodup := by
    refine List.Pairwise.imp (fun {first second} before => ?_) ascending
    rintro rfl
    exact List.lt_irrefl _ before
  exact List.Perm.eq_of_pairwise (fun _ _ _ _ before after => absurd after (List.lt_asymm before)) ascending also
    ((List.perm_ext_iff_of_nodup (distinct ascending) (distinct also)).mpr same)

/-! A directory -/

/-- A pathname leads to a directory on a machine, the files of which are as they can be on one. -/
structure LeadsTo (machine : Machine) (path : String) (place : Place) : Prop where
  proper : machine.tree.Proper
  located : machine.tree.place? machine.workingDirectory path = .ok place
  directory : machine.tree.entry? place = some .directory

namespace LeadsTo

variable {entry : FileEntry}

theorem filled (leads : LeadsTo machine path place) : path ≠ "" := (place?_eq_ok_iff.mp leads.located).2.1

/-- What stands in the directory is found under the pathname of the directory and its own name. -/
theorem find?_join (leads : LeadsTo machine path place)
    (found : machine.tree.entry? (place ++ [name]) = some entry) :
    machine.tree.find? machine.workingDirectory (Pathname.join path name) = .ok entry :=
  FileTree.find?_join (leads.proper.isEntryName found) leads.located leads.directory found

theorem formatOf?_join (leads : LeadsTo machine path place)
    (found : machine.tree.entry? (place ++ [name]) = some entry) :
    formatOf? (Pathname.join path name) = formatOfName? name := by
  rw [formatOf?, Pathname.name?_join (leads.proper.isEntryName found) leads.filled, Option.bind_some]

theorem isFile_join (leads : LeadsTo machine path place) (named : name ∈ machine.tree.namesAt place) :
    (machine.run (Files.isFile (Pathname.join path name))).1 = isFileAt machine.tree (place ++ [name]) := by
  obtain ⟨entry, found⟩ := Option.isSome_iff_exists.mp (mem_namesAt_iff.mp named)
  show (((machine.tree.find? machine.workingDirectory (Pathname.join path name)).map FileEntry.kind).toOption ==
    some .file) = _
  rw [leads.find?_join found, isFileAt, found]
  rfl

/-- The files of the directory that are listed are loaded in their order. -/
theorem run_load (leads : LeadsTo machine path place) :
    (machine.run (load path)).1 =
      (listing machine.tree place).mapM fun name => loaded machine (Pathname.join path name) := by
  have isDirectory : (machine.run (Files.isDirectory path)).1 = true := by
    show (((machine.tree.find? machine.workingDirectory path).map FileEntry.kind).toOption == some .directory) = true
    have found : machine.tree.find? machine.workingDirectory path = .ok .directory := by
      simp [find?, leads.located, leads.directory, bind, Except.bind, pure, Except.pure]
    rw [found]
    rfl
  have names : (machine.run (Files.names path)).1 = .ok (machine.tree.namesAt place) := by
    show machine.tree.names machine.workingDirectory path = _
    simp [FileTree.names, leads.located, leads.directory, bind, Except.bind, pure, Except.pure]
  unfold load
  rw [(Reads.isDirectory path).run_bind, isDirectory, if_pos rfl]
  unfold loadDirectory
  rw [(Reads.names path).run_bind, names]
  dsimp only
  rw [(reads_listedFiles path _).run_bind, run_loadFiles, run_listedFiles, List.mapM_map]
  have files : (machine.tree.namesAt place).filter (fun name =>
      isListed name && (machine.run (Files.isFile (Pathname.join path name))).1) =
      (machine.tree.namesAt place).filter fun name => isListed name && isFileAt machine.tree (place ++ [name]) :=
    List.filter_congr fun name named => by rw [leads.isFile_join named]
  rw [files]
  rfl

/-- A scenario file of the directory is read and parsed in its notation. -/
theorem loaded_join (leads : LeadsTo machine path place) {format : Format} (known : formatOfName? name = some format)
    (found : machine.tree.entry? (place ++ [name]) = some (.file content)) :
    loaded machine (Pathname.join path name) =
      ofReading (Pathname.join path name) format ((content.map Except.ok).getD (.error .notText)) := by
  have reading : machine.tree.readText machine.workingDirectory (Pathname.join path name) =
      (content.map Except.ok).getD (.error .notText) := by
    rw [readText, leads.find?_join found]
    cases content <;> rfl
  rw [loaded_eq machine ((leads.formatOf?_join found).trans known), reading]

/-- A directory with the same scenario files under the same pathname gives the same, whatever else there is. -/
theorem run_load_eq {twin : Machine} {other : Place} (leads : LeadsTo machine path place)
    (also : LeadsTo twin path other)
    (same : ∀ name content, IsScenarioName name → (twin.tree.entry? (other ++ [name]) = some (.file content) ↔
      machine.tree.entry? (place ++ [name]) = some (.file content))) :
    (twin.run (load path)).1 = (machine.run (load path)).1 := by
  have names : listing twin.tree other = listing machine.tree place := by
    refine (ascending_listing also.proper other).eq (ascending_listing leads.proper place) fun name => ?_
    rw [mem_listing_iff, mem_listing_iff]
    exact and_congr_right fun isScenario => exists_congr fun content => same name content isScenario
  rw [also.run_load, leads.run_load, names]
  refine mapM_congr fun name listed => ?_
  obtain ⟨isScenario, content, found⟩ := mem_listing_iff.mp listed
  obtain ⟨format, known⟩ := exists_formatOfName? isScenario
  rw [also.loaded_join known ((same name content isScenario).mpr found), leads.loaded_join known found]

/-- The order in which directories list their entries does not matter. -/
theorem of_perm (leads : LeadsTo machine path place) {entries : List (Place × FileEntry)}
    (perm : entries.Perm machine.tree.entries) : LeadsTo { machine with tree := ⟨entries⟩ } path place := by
  obtain ⟨proper, same⟩ := leads.proper.of_perm perm
  have covers : Covers ⟨entries⟩ machine.tree := fun place directory => (same place).trans directory
  exact ⟨proper, covers.place?_eq leads.located, (same place).trans leads.directory⟩

end LeadsTo

/-- The scenarios of a directory that lists its entries in any order. There are the regular files whose names end like
those of scenario files, in the order of the octets of their names. If each of them is loaded the directory gives their
scenarios in that order, and otherwise it fails as the first of them that fails. None of them fails for its name. The
order of the listing does not matter, and what else is in the directory or anywhere on the machine does not either. -/
theorem load_directory (leads : LeadsTo machine path place) :
    let one (name : String) : Except Failure Scenario := (machine.run (loadFile (Pathname.join path name))).1
    ∃ names, Ascending names ∧
      (∀ name, name ∈ names ↔
        IsScenarioName name ∧ ∃ content, machine.tree.entry? (place ++ [name]) = some (.file content)) ∧
      (∀ scenarios, (machine.run (load path)).1 = .ok scenarios ↔
        List.Forall₂ (fun name scenario => one name = .ok scenario) names scenarios) ∧
      (∀ failure, (machine.run (load path)).1 = .error failure ↔
        ∃ before name after, names = before ++ name :: after ∧
          (∀ other ∈ before, ∃ scenario, one other = .ok scenario) ∧ one name = .error failure) ∧
      (∀ name ∈ names, ∀ failure, one name = .error failure →
        failure.message ≠ "Unrecognised scenario file: " ++ Pathname.join path name) ∧
      (∀ entries : List (Place × FileEntry), entries.Perm machine.tree.entries →
        (run { machine with tree := ⟨entries⟩ } (load path)).1 = (machine.run (load path)).1) ∧
      ∀ (twin : Machine) (other : Place), LeadsTo twin path other →
        (∀ name content, IsScenarioName name → (twin.tree.entry? (other ++ [name]) = some (.file content) ↔
          machine.tree.entry? (place ++ [name]) = some (.file content))) →
        (twin.run (load path)).1 = (machine.run (load path)).1 := by
  intro one
  have whole := leads.run_load
  refine ⟨listing machine.tree place, ascending_listing leads.proper place, fun name => mem_listing_iff,
    fun scenarios => ?all, fun failure => ?first, fun name listed failure failed => ?known, fun entries perm => ?order,
    fun twin other also same => leads.run_load_eq also same⟩
  case all => rw [whole, mapM_eq_ok_iff]; rfl
  case first => rw [whole, mapM_eq_error_iff]; rfl
  case known =>
    obtain ⟨isScenario, content, found⟩ := mem_listing_iff.mp listed
    obtain ⟨format, known⟩ := exists_formatOfName? isScenario
    exact message_of_ofReading ((leads.loaded_join known found).symm.trans failed)
  case order =>
    refine leads.run_load_eq (leads.of_perm perm) fun name content _ => ?_
    rw [(leads.proper.of_perm perm).2]

/-- A directory with two scenarios, documentation that is no text, and a directory with a name like those of scenarios. -/
def shelf : Machine where
  tree := ⟨[(["flows"], .directory), (["flows", "b.flow"], .file (some "```kest\nGET /b\n```\n")),
    (["flows", "notes.md"], .file none), (["flows", "c.flow.md"], .directory),
    (["flows", "a.flow.md"], .file (some "```kest\nGET /a\n```\n"))]⟩

/-- The two scenarios are loaded in the order of their names, however the directory is listed. -/
theorem shelf_loaded :
    let names (machine : Machine) := (machine.run (load "flows/")).1.map fun scenarios => scenarios.map Scenario.name
    LeadsTo shelf "flows/" ["flows"] ∧ names shelf = .ok ["a", "b"] ∧
      names { shelf with tree := ⟨shelf.tree.entries.reverse⟩ } = .ok ["a", "b"] := by
  intro names
  have leads : LeadsTo shelf "flows/" ["flows"] := ⟨⟨by decide +kernel, by decide +kernel⟩, by decide +kernel, rfl⟩
  have found : listing shelf.tree ["flows"] = ["a.flow.md", "b.flow"] := by
    have files : (namesAt shelf.tree ["flows"]).filter (fun name =>
        isListed name && isFileAt shelf.tree (["flows"] ++ [name])) = ["b.flow", "a.flow.md"] := by decide +kernel
    refine (ascending_listing leads.proper _).eq (by decide +kernel) fun name => ?_
    rw [listing, List.mem_mergeSort, files]
    simp [or_comm]
  have given : names shelf = .ok ["a", "b"] := by
    show Except.map _ (shelf.run (load "flows/")).1 = _
    rw [leads.run_load, found]
    decide +kernel
  obtain ⟨_, -, -, -, -, -, unordered, -⟩ := load_directory leads
  refine ⟨leads, given, ?_⟩
  show Except.map _ (run { shelf with tree := ⟨shelf.tree.entries.reverse⟩ } (load "flows/")).1 = _
  rw [unordered _ (List.reverse_perm _)]
  exact given

end Runbook.Scenario

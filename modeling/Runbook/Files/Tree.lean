import Runbook.Files.Basic

/-!
A tree of files as a value, in which pathnames are looked up from a working directory.
-/

namespace Runbook

open Runbook.Text

/-- The name of each directory on the way from the root. -/
abbrev Place := List String

/-- What stands at a place. -/
inductive FileEntry where
  | directory
  /-- A file with its text; a file may hold something that is not text. -/
  | file (content : Option String)
deriving DecidableEq, Repr

/-- The kind of an entry. -/
def FileEntry.kind : FileEntry → FileKind
  | directory => .directory
  | file _ => .file

/-- The entries below the root, each at its place. -/
structure FileTree where
  entries : List (Place × FileEntry) := []
deriving Repr, Inhabited

namespace FileTree

/-- The entry at a place; the root is always a directory. -/
def entry? (tree : FileTree) (place : Place) : Option FileEntry :=
  if place.isEmpty then some .directory else tree.entries.lookup place

/-- The tree with an entry at a place. -/
def put (tree : FileTree) (place : Place) (entry : FileEntry) : FileTree :=
  if (tree.entries.lookup place).isSome then
    ⟨tree.entries.map fun held => if held.1 == place then (place, entry) else held⟩
  else ⟨tree.entries ++ [(place, entry)]⟩

/-- The pieces of a pathname between slashes. -/
def pieces (path : String) : List String := (splitAt '/' path.toList).map String.ofList

/-- The number of octets that a name may have. -/
def nameLimit : Nat := 255

/-- The place that pieces lead to from a place; every piece has to start from a directory. -/
def follow (tree : FileTree) : Place → List String → Except FileError Place
  | place, [] => .ok place
  | place, piece :: rest =>
    match tree.entry? place with
    | none => .error .notFound
    | some (.file _) => .error .notDirectory
    | some .directory =>
      if piece.isEmpty || piece == "." then follow tree place rest
      else if piece == ".." then follow tree place.dropLast rest
      else if nameLimit < piece.utf8ByteSize then .error .nameTooLong
      else follow tree (place ++ [piece]) rest

/-- The place that a pathname leads to from a working directory. -/
def place? (tree : FileTree) (workingDirectory : Place) (path : String) : Except FileError Place :=
  if path.toList.contains '\x00' then .error .zeroInName
  else if path.isEmpty then .error .notFound
  else tree.follow (if Pathname.isAbsolute path then [] else workingDirectory) (pieces path)

/-- The entry that a pathname leads to. -/
def find? (tree : FileTree) (workingDirectory : Place) (path : String) : Except FileError FileEntry := do
  match tree.entry? (← tree.place? workingDirectory path) with
  | some entry => return entry
  | none => throw .notFound

/-- The text of a file. -/
def readText (tree : FileTree) (workingDirectory : Place) (path : String) : Except FileError String := do
  match ← tree.find? workingDirectory path with
  | .directory => throw .isDirectory
  | .file (some text) => return text
  | .file none => throw .notText

/-- The names of the entries in a directory. -/
def namesAt (tree : FileTree) (place : Place) : List String :=
  tree.entries.filterMap fun (held, _) => if held.dropLast == place then held.getLast? else none

/-- The names in the directory that a pathname leads to. -/
def names (tree : FileTree) (workingDirectory : Place) (path : String) : Except FileError (List String) := do
  let place ← tree.place? workingDirectory path
  match tree.entry? place with
  | some .directory => return tree.namesAt place
  | some (.file _) => throw .notDirectory
  | none => throw .notFound

/-- The check of the directory that an entry stands in. -/
def checkAbove (tree : FileTree) (place : Place) : Except FileError Unit :=
  match tree.entry? place.dropLast with
  | some .directory => .ok ()
  | some (.file _) => .error .notDirectory
  | none => .error .notFound

/-- A directory is made where nothing stands. -/
def makeDirectory (tree : FileTree) (workingDirectory : Place) (path : String) : Except FileError FileTree := do
  let place ← tree.place? workingDirectory (String.ofList (dropSlashes path.toList))
  tree.checkAbove place
  match tree.entry? place with
  | some _ => throw .alreadyThere
  | none => return tree.put place .directory
where
  /-- A pathname without the slashes at its end, unless it is the root. -/
  dropSlashes (path : List Char) : List Char :=
    let rest := (path.reverse.dropWhile (· == '/')).reverse
    if rest.isEmpty then path else rest

/-- A file gets a text that depends on the one it has, which is empty for a new file. -/
def update (tree : FileTree) (workingDirectory : Place) (path : String) (change : Option String → Option String) :
    Except FileError FileTree := do
  let place ← tree.place? workingDirectory path
  tree.checkAbove place
  match tree.entry? place with
  | some .directory => throw .isDirectory
  | some (.file content) => return tree.put place (.file (change content))
  | none => return tree.put place (.file (change (some "")))

/-- A file gets a text. -/
def write (tree : FileTree) (workingDirectory : Place) (path text : String) : Except FileError FileTree :=
  tree.update workingDirectory path fun _ => some text

/-- A text is added at the end of a file. -/
def append (tree : FileTree) (workingDirectory : Place) (path text : String) : Except FileError FileTree :=
  tree.update workingDirectory path fun held => held.map (· ++ text)

end FileTree
end Runbook

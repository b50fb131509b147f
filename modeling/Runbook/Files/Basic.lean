import Runbook.Files.Pathname

/-!
Files and directories, as the services of a machine.
-/

namespace Runbook

/-- Why a file or directory cannot be used. -/
inductive FileError where
  | notFound
  | alreadyThere
  | notDirectory
  | isDirectory
  | nameTooLong
  | zeroInName
  | notText
  | other (text : String)
deriving DecidableEq, Repr

/-- The wording of a file error. -/
def FileError.message : FileError → String
  | notFound => "No such file or directory (os error 2)"
  | alreadyThere => "File exists (os error 17)"
  | notDirectory => "Not a directory (os error 20)"
  | isDirectory => "Is a directory (os error 21)"
  | nameTooLong => "File name too long (os error 36)"
  | zeroInName => "file name contained an unexpected NUL byte"
  | notText => "stream did not contain valid UTF-8"
  | other text => text

/-- What a pathname leads to. -/
inductive FileKind where
  | file
  | directory
deriving DecidableEq, Repr

/-- Files and directories in a monad. -/
class Files (m : Type → Type) where
  kind? : String → m (Option FileKind)
  readText : String → m (Except FileError String)
  /-- The names in a directory, in any order. -/
  names : String → m (Except FileError (List String))
  /-- A directory is made in one that is there. -/
  makeDirectory : String → m (Except FileError Unit)
  write : String → String → m (Except FileError Unit)
  append : String → String → m (Except FileError Unit)

namespace Files

variable {m : Type → Type} [Monad m] [Files m]

/-- A pathname leads to a file. -/
def isFile (path : String) : m Bool := return (← kind? path) == some .file

/-- A pathname leads to a directory. -/
def isDirectory (path : String) : m Bool := return (← kind? path) == some .directory

/-- A pathname leads anywhere. -/
def isThere (path : String) : m Bool := return (← kind? path).isSome

/-- An error does not matter where the directory is there after all. -/
def unlessDirectory (path : String) (error : FileError) : m (Except FileError Unit) :=
  return if ← isDirectory path then .ok () else .error error

/-- A directory is made, after those of the given directories above it that are missing. -/
def makeBelow (path : String) : List String → m (Except FileError Unit)
  | [] => do
    match ← makeDirectory path with
    | .ok () => return .ok ()
    | .error error => unlessDirectory path error
  | parent :: higher => do
    match ← makeDirectory path with
    | .ok () => return .ok ()
    | .error .notFound =>
      match ← makeBelow parent higher with
      | .error error => return .error error
      | .ok () =>
        match ← makeDirectory path with
        | .ok () => return .ok ()
        | .error error => unlessDirectory path error
    | .error error => unlessDirectory path error

/-- A directory is made, and every missing one above it. The current directory is always there. -/
def makeDirectories (path : String) : m (Except FileError Unit) :=
  if path.isEmpty then return .ok ()
  else makeBelow path ((Pathname.parents path.length path).filter (!·.isEmpty))

end Files
end Runbook

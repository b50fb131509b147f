import Runbook.Failure
import Runbook.Files.Basic
import Runbook.Graph
import Runbook.Script.Basic

/-!
Loading scenarios from files. A directory gives every scenario in it, in the order of the file names; a file that holds
no scenario fails the whole.
-/

namespace Runbook.Scenario

open Runbook.Text

/-- The notation of a scenario file. -/
inductive Format where
  | script
  | graph
deriving DecidableEq, Repr

/-- The name of a notation. -/
def Format.name : Format → String
  | script => "script"
  | graph => "graph"

/-- A name ends in one of some endings. -/
def endsIn (endings : List String) (name : String) : Bool :=
  endings.any fun ending => (beforeBack? ending.toList name.toList).isSome

/-- The endings of graph files. -/
def graphEndings : List String := [".graph.yaml", ".graph.yml", ".graph.json"]

/-- The notation of a file with a name, where the file is asked for. -/
def formatOfName? (name : String) : Option Format :=
  if endsIn graphEndings name then some .graph
  else if endsIn [".md", ".flow"] name then some .script
  else none

/-- The notation of a file that is asked for. -/
def formatOf? (path : String) : Option Format := (Pathname.name? path).bind formatOfName?

/-- A name that a search of a directory takes for a scenario; other Markdown is documentation. -/
def isListed (name : String) : Bool := endsIn ([".flow.md", ".flow"] ++ graphEndings) name

/-- The name without the ending of a script. -/
def stem (name : String) : String :=
  let cut (ending : String) : Option String := (beforeBack? ending.toList name.toList).map String.ofList
  ((cut ".flow.md").or ((cut ".md").or (cut ".flow"))).getD name

/-- The scenario of a text in a notation, and what to say where there is none. -/
def ofText (path : String) (text : String) : Format → Except Failure Scenario
  | .script => (Script.parse text ((Pathname.name? path).map stem)).mapError fun error =>
      ⟨"Failed to parse flow " ++ path, [error.message]⟩
  | .graph => (Graph.parse text).mapError fun error => ⟨"Failed to parse graph " ++ path, [error.message]⟩

variable {m : Type → Type} [Monad m] [Files m]

/-- The scenario in a file. -/
def loadFile (path : String) : m (Except Failure Scenario) := do
  match formatOf? path with
  | none => return .error { message := "Unrecognised scenario file: " ++ path }
  | some format =>
    match ← Files.readText path with
    | .error cause => return .error ⟨"Failed to read scenario file: " ++ path, [cause.message]⟩
    | .ok text => return (ofText path text format).map fun scenario => { scenario with source := some path }

/-- The scenarios in some files; the first file without one fails all. -/
def loadFiles : List String → m (Except Failure (List Scenario))
  | [] => return .ok []
  | path :: rest => do
    match ← loadFile path with
    | .error failure => return .error failure
    | .ok scenario => return (← loadFiles rest).map (scenario :: ·)

/-- Those of some names in a directory that a search takes for scenarios. -/
def listedFiles (directory : String) : List String → m (List String)
  | [] => return []
  | name :: rest => do
    let more ← listedFiles directory rest
    return if isListed name && (← Files.isFile (Pathname.join directory name)) then name :: more else more

/-- The scenarios in a directory, in the order of the file names. -/
def loadDirectory (directory : String) : m (Except Failure (List Scenario)) := do
  match ← Files.names directory with
  | .error cause => return .error ⟨"Failed to read directory: " ++ directory, [cause.message]⟩
  | .ok names =>
    let listed ← listedFiles directory names
    loadFiles ((listed.mergeSort fun first second => first ≤ second).map (Pathname.join directory))

/-- The scenarios that a pathname leads to: those of a directory, or the one of a file. -/
def load (path : String) : m (Except Failure (List Scenario)) := do
  if ← Files.isDirectory path then loadDirectory path
  else return (← loadFile path).map fun scenario => [scenario]

end Runbook.Scenario

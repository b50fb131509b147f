import Runbook.Command.Reading
import Runbook.Report.File

/-!
What a command line asks for.
-/

namespace Runbook.Command

/-- What is shown of a run. -/
inductive Output where
  /-- A line for each step that is done, and a table at the end. -/
  | text
  /-- The event stream. -/
  | stream
  /-- The records of all runs. -/
  | json
deriving DecidableEq, Repr

/-- The output with a name. -/
def Output.ofName? (name : String) : Option Output :=
  (outputNames.zip [text, stream, json]).lookup name

/-- The format of report files with a name. -/
def reportFormat? (name : String) : Option Report.Format :=
  (reportNames.zip [.json, .yaml, .text]).lookup name

/-- How scenarios are carried out and where the results go. -/
structure Execution where
  environment : Option String := none
  /-- The timeout in milliseconds of steps that set none. -/
  timeout : Option Nat := none
  output : Output := .text
  reportDirectory : Option String := none
  reportFormat : Report.Format := .json
  consoleUrl : Option String := none
deriving DecidableEq, Repr

/-- How the scenarios of a file or directory are carried out together. -/
structure Grouping where
  parallel : Bool := false
  jobs : Option Nat := none
  /-- After the first failure every remaining step of a run is skipped. -/
  failFast : Bool := false
deriving DecidableEq, Repr

/-- A single request as it is written on the command line. -/
structure Adhoc where
  method : String
  url : String
  headers : List String := []
  body : Option String := none
  captures : List String := []
  asserts : List String := []
deriving DecidableEq, Repr

/-- What is listed of the history. -/
structure Listing where
  limit : Nat := 20
  /-- The requests of all projects are listed. -/
  everywhere : Bool := false
  method : Option String := none
  urlPart : Option String := none
deriving DecidableEq, Repr

/-- What is to be done. -/
inductive Task where
  | run (path : String) (grouping : Grouping) (execution : Execution)
  | request (adhoc : Adhoc) (execution : Execution)
  | history (listing : Listing)
  | inspect (id : Int)
  | replay (id : Int) (headers : List String)
  | listEnvironments
  | useEnvironment (name : String)
deriving DecidableEq, Repr

/-- A task, and the configuration file to use where it is not the one that is found. -/
structure Invocation where
  config : Option String := none
  task : Task
deriving DecidableEq, Repr

namespace Reading

variable (settings : String → Option String) (reading : Reading)

/-- The execution that a command line asks for. -/
def execution : Execution where
  environment := reading.valueOr? settings .environment
  timeout := (reading.value? .timeout).bind natural?
  output := ((reading.valueOr? settings .format).bind Output.ofName?).getD .text
  reportDirectory := reading.value? .reportDirectory
  reportFormat := ((reading.valueOr? settings .reportFormat).bind reportFormat?).getD .json
  consoleUrl := reading.valueOr? settings .consoleUrl

/-- The grouping that a command line asks for. -/
def grouping : Grouping where
  parallel := reading.has .parallel
  jobs := (reading.value? .jobs).bind natural?
  failFast := reading.has .failFast

/-- The listing that a command line asks for. -/
def listing : Listing where
  limit := ((reading.valueOr? settings .limit).bind natural?).getD 20
  everywhere := reading.has .everywhere
  method := reading.value? .method
  urlPart := reading.value? .url

/-- The task that a command line asks for. -/
def task? : Option Task :=
  match reading.verb, reading.operands with
  | .run, [path] => some (.run path reading.grouping (reading.execution settings))
  | .request, [method, url] =>
    some (.request {
      method, url
      headers := reading.values .header
      body := reading.value? .data
      captures := reading.values .capture
      asserts := reading.values .assertion } (reading.execution settings))
  | .history, [] => some (.history (reading.listing settings))
  | .inspect, [id] => (integer? id).map .inspect
  | .replay, [id] => (integer? id).map fun id => .replay id (reading.values .newHeader)
  | .environmentList, [] => some .listEnvironments
  | .environmentUse, [name] => some (.useEnvironment name)
  | _, _ => none

end Reading

/-- The invocation that a command line stands for. -/
def Invocation.ofWords (settings : String → Option String) (words : List String) : Except Stop Invocation := do
  let reading ← Reading.ofWords words
  match reading.task? settings with
  | some task => return { config := reading.value? .config, task }
  | none => throw (.misuse reading.verb)

end Runbook.Command

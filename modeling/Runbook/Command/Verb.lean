import Runbook.Command.Switch

/-!
The verbs of the command line: their names, their switches, what stands after them, and the verbs below them.
-/

namespace Runbook.Command

/-- A verb of the command line; the top one is the program itself. -/
inductive Verb where
  | top
  | run
  | request
  | history
  | inspect
  | replay
  | environments
  | environmentList
  | environmentUse
deriving DecidableEq, Repr

/-- A value that stands after a verb without a switch. -/
structure Operand where
  placeholder : String
  kind : ValueKind := .text
  about : String := ""
deriving Repr

namespace Verb

/-- How a verb is written, after the verbs above it. -/
def words : Verb → List String
  | top => []
  | run => ["run"]
  | request => ["request"]
  | history => ["history"]
  | inspect => ["show"]
  | replay => ["replay"]
  | environments => ["env"]
  | environmentList => ["env", "list"]
  | environmentUse => ["env", "use"]

/-- The last word of a verb. -/
def name (verb : Verb) : String := verb.words.getLastD ""

/-- What a verb does. -/
def about : Verb → String
  | top => "Markdown-driven API flow testing: templated HTTP steps, captures, assertions and request history"
  | run => "Run a flow file, graph file or directory of scenarios"
  | request => "Send one ad-hoc request through the flow engine"
  | history => "List recent requests"
  | inspect => "Show one history record with request and response bodies"
  | replay => "Re-send a recorded request"
  | environments => "Manage environments"
  | environmentList => "List environments; the active one is starred"
  | environmentUse => "Make an environment the active one"

/-- The verbs that follow a verb, one of which has to. -/
def verbs : Verb → List Verb
  | top => [run, request, history, inspect, replay, environments]
  | environments => [environmentList, environmentUse]
  | _ => []

/-- The switches of everything that carries out scenarios. -/
def executionSwitches : List Switch :=
  [.environment, .timeout, .format, .reportDirectory, .reportFormat, .consoleUrl]

/-- The switches of a verb. -/
def switches : Verb → List Switch
  | top => [.verbose, .config, .help, .version]
  | run => [.parallel, .verbose, .config, .jobs, .failFast] ++ executionSwitches ++ [.help]
  | request =>
    [.header, .verbose, .config, .data, .capture, .assertion] ++ executionSwitches ++ [.help]
  | history => [.limit, .verbose, .config, .everywhere, .method, .url, .help]
  | replay => [.newHeader, .verbose, .config, .help]
  | inspect | environments | environmentList | environmentUse => [.verbose, .config, .help]

/-- The values that a verb needs after it. -/
def operands : Verb → List Operand
  | run => [{ placeholder := "PATH", kind := .path, about := "Scenario file or directory" }]
  | request => [{ placeholder := "METHOD" }, { placeholder := "URL" }]
  | inspect | replay => [{ placeholder := "ID", kind := .integer }]
  | environmentUse => [{ placeholder := "NAME" }]
  | top | history | environments | environmentList => []

/-- The switch of a verb with a letter. -/
def short? (verb : Verb) (letter : Char) : Option Switch :=
  verb.switches.find? fun switch => switch.form.short == some letter

/-- The switch of a verb with a name. -/
def long? (verb : Verb) (name : String) : Option Switch :=
  verb.switches.find? fun switch => switch.form.long == some name

end Verb
end Runbook.Command

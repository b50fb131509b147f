import Runbook.Text.Ascii

/-!
The switches of the command line: how each is written, and what value it takes.
-/

namespace Runbook.Command

open Runbook.Text

/-- What a value has to be. -/
inductive ValueKind where
  | text
  /-- A pathname, which is not empty. -/
  | path
  /-- A number of a 64-bit word. -/
  | natural
  /-- A number of a signed 64-bit word. -/
  | integer
  | oneOf (names : List String)
deriving DecidableEq, Repr

/-- The number of a 64-bit word that a text writes. -/
def natural? (text : String) : Option Nat := naturalBelow? (Nat.pow 2 64) text.toList

/-- The number of a signed 64-bit word that a text writes. -/
def integer? (text : String) : Option Int :=
  (Text.integer? text.toList).filter fun value => -(Nat.pow 2 63 : Int) ≤ value && value < Nat.pow 2 63

/-- A text is a value of a kind. -/
def ValueKind.accepts : ValueKind → String → Bool
  | text, _ => true
  | path, value => !value.isEmpty
  | natural, value => (natural? value).isSome
  | integer, value => (integer? value).isSome
  | oneOf names, value => names.contains value

/-- The value of a switch. -/
structure ValueForm where
  placeholder : String
  kind : ValueKind := .text
  /-- The value where the switch is not given. -/
  standard : Option String := none
  /-- The setting that gives the value where the switch is not given. -/
  setting : Option String := none
deriving Repr

/-- How a switch is written; a switch without a value is a flag. -/
structure SwitchForm where
  short : Option Char := none
  long : Option String := none
  value : Option ValueForm := none
  /-- The switch may be given several times. -/
  repeats : Bool := false
  about : String
deriving Repr

/-- A switch of the command line. -/
inductive Switch where
  | verbose
  | config
  | help
  | version
  | parallel
  | jobs
  | failFast
  | environment
  | timeout
  | format
  | reportDirectory
  | reportFormat
  | consoleUrl
  | header
  | newHeader
  | data
  | capture
  | assertion
  | limit
  | everywhere
  | method
  | url
deriving DecidableEq, Repr

/-- The names of the formats of what is shown of a run. -/
def outputNames : List String := ["text", "sse", "json"]

/-- The names of the formats of report files. -/
def reportNames : List String := ["json", "yaml", "text"]

/-- The form of a switch. -/
def Switch.form : Switch → SwitchForm
  | verbose => { short := 'v', long := "verbose", about := "Enable verbose logging" }
  | config => {
      long := "config"
      value := some { placeholder := "CONFIG", kind := .path }
      about := "Config file (default: nearest .kest/config.yaml)" }
  | help => { short := 'h', long := "help", about := "Print help" }
  | version => { short := 'V', long := "version", about := "Print version" }
  | parallel => { long := "parallel", about := "Run scenarios concurrently" }
  | jobs => {
      short := 'j', long := "jobs"
      value := some { placeholder := "JOBS", kind := .natural }
      about := "Concurrent runs with --parallel (default from config)" }
  | failFast => { long := "fail-fast", about := "Skip every remaining step after the first failure" }
  | environment => {
      short := 'e', long := "env"
      value := some { placeholder := "ENV", setting := "KEST_ENV" }
      about := "Environment to run against instead of the active one" }
  | timeout => {
      short := 't', long := "timeout"
      value := some { placeholder := "TIMEOUT_MS", kind := .natural }
      about := "Default per-step timeout in milliseconds" }
  | format => {
      long := "format"
      value := some { placeholder := "FORMAT", kind := .oneOf outputNames, standard := "text" }
      about := "Output format" }
  | reportDirectory => {
      short := 'r', long := "report-dir"
      value := some { placeholder := "REPORT_DIR", kind := .path }
      about := "Directory to save run report files" }
  | reportFormat => {
      long := "report-format"
      value := some { placeholder := "REPORT_FORMAT", kind := .oneOf reportNames, standard := "json" }
      about := "Report file format" }
  | consoleUrl => {
      long := "console-url"
      value := some { placeholder := "CONSOLE_URL", setting := "KEST_CONSOLE_URL" }
      about := "Console to submit finished runs to" }
  | header => {
      short := 'H', long := "header"
      value := some { placeholder := "HEADERS" }
      repeats := true
      about := "Request header, \x60Name: value\x60" }
  | newHeader => {
      short := 'H', long := "header"
      value := some { placeholder := "HEADERS" }
      repeats := true
      about := "Header override, \x60Name: value\x60" }
  | data => { short := 'd', long := "data", value := some { placeholder := "DATA" }, about := "Request body" }
  | capture => {
      short := 'c', long := "capture"
      value := some { placeholder := "CAPTURES" }
      repeats := true
      about := "Capture, \x60name=path\x60" }
  | assertion => {
      short := 'a', long := "assert"
      value := some { placeholder := "ASSERTS" }
      repeats := true
      about := "Assertion, e.g. \x60status == 200\x60" }
  | limit => {
      short := 'n'
      value := some { placeholder := "LIMIT", kind := .natural, standard := "20" }
      about := "Number of records to show" }
  | everywhere => { long := "global", about := "Include requests from every project" }
  | method => { long := "method", value := some { placeholder := "METHOD" }, about := "Only this HTTP method" }
  | url => { long := "url", value := some { placeholder := "URL" }, about := "Only URLs containing this text" }

end Runbook.Command

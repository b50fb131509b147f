import Runbook.Config.Basic
import Runbook.Document.Decode
import Runbook.Document.Encode
import Runbook.Yaml.Printer
import Runbook.Yaml.Readable

/-!
The configuration as a document. What is absent or empty is left out of it.
-/

namespace Runbook

open Readable Document

namespace Document

variable {ν : Type} [Readable ν]

/-- An environment of a configuration. -/
def target? (node : ν) : Option Config.Target := do
  let record ← record? ["base_url", "variables", "headers"] node
  return {
    baseUrl := ← record.nullable 0 text?
    bindings := ← record.orElse 1 [] texts?
    headers := ← record.orElse 2 [] texts? }

/-- The defaults of a configuration. -/
def defaults? (node : ν) : Option Config.Defaults := do
  let record ← record? ["timeout_ms", "jobs"] node
  return {
    timeout := ← record.orElse 0 30000 (natBelow? (wordBound 64))
    jobs := ← record.orElse 1 4 (natBelow? (wordBound 64)) }

/-- The console of a configuration. -/
def console? (node : ν) : Option Config.Console := do
  let record ← record? ["url", "token"] node
  return { url := ← record.nullable 0 text?, token := ← record.nullable 1 text? }

/-- A configuration. -/
def config? (node : ν) : Option Config := do
  let record ← record? ["active_env", "environments", "defaults", "console"] node
  return {
    active := ← record.nullable 0 text?
    targets := ← record.orElse 1 [] (dictOf? target?)
    defaults := ← record.orElse 2 {} defaults?
    console := ← record.orElse 3 {} console? }

end Document

/-- The fields that an optional text makes. -/
def Json.textField (name : String) (value : Option String) : List (String × Json) :=
  (value.map fun text => (name, Json.string text)).toList

/-- The fields that a dictionary of texts makes. -/
def Json.textsField (name : String) (texts : Dict String) : List (String × Json) :=
  if texts.isEmpty then [] else [(name, .ofTexts texts)]

namespace Config

/-- An environment of a configuration as JSON. -/
def Target.toJson (target : Target) : Json :=
  .object (Json.textField "base_url" target.baseUrl ++ Json.textsField "variables" target.bindings ++
    Json.textsField "headers" target.headers)

/-- A configuration as JSON. -/
def toJson (config : Config) : Json :=
  .object (Json.textField "active_env" config.active ++ [
    ("environments", .object (config.targets.mapValues Target.toJson)),
    ("defaults", .object [("timeout_ms", .int config.defaults.timeout), ("jobs", .int config.defaults.jobs)]),
    ("console", .object (Json.textField "url" config.console.url ++ Json.textField "token" config.console.token))])

/-- The configuration that a YAML text holds. -/
def read? (text : String) : Option Config := (Yaml.read? text).bind Document.config?

/-- A configuration as YAML. -/
def text (config : Config) : String := Yaml.print config.toJson

end Config
end Runbook

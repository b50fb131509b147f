import Runbook.Json.Printer
import Runbook.Scope
import Runbook.Template.Basic
import Runbook.Template.Builtin

/-!
Filling the placeholders of a template. The values put in are never read as templates again.
-/

namespace Runbook

/-- A name that stands for no value. -/
structure Unresolved where
  name : String
deriving DecidableEq, Repr

/-- The wording of an unresolved name. -/
def Unresolved.message (error : Unresolved) : String := "unresolved variable '" ++ error.name ++ "'"

/-- The text of a value inside a text: a string as it is, anything else as compact JSON. -/
def Json.render : Json → String
  | .string text => text
  | other => other.compact

namespace Template

/-- The value of a name and where it comes from. -/
def lookup (draws : Draws) (scope : Scope) (name : String) : Except Unresolved (Json × Origin) :=
  if isBuiltin name then
    match builtin? draws name with
    | some text => .ok (.string text, .builtin)
    | none => .error ⟨name⟩
  else
    match scope.find? name with
    | some found => .ok found
    | none => .error ⟨name⟩

/-- The text of pieces with every placeholder filled; each placeholder has draws of its own. -/
def fill (draws : Draws) (scope : Scope) : List Piece → Except Unresolved String
  | [] => .ok ""
  | .char c :: rest => do
    let more ← fill draws scope rest
    return c.toString ++ more
  | .hole name :: rest => do
    let (value, _) ← lookup (draws.part (rest.length + 1)) scope name
    let more ← fill draws scope rest
    return value.render ++ more

/-- The text of a template; the first unresolved name is the error. -/
def resolve (draws : Draws) (scope : Scope) (template : String) : Except Unresolved String :=
  fill draws scope (pieces template)

/-- The value of a template: one placeholder alone keeps the kind of its value, anything else is a text. -/
def resolveValue (draws : Draws) (scope : Scope) (template : String) : Except Unresolved Json :=
  match soleHole? (Text.trimmed template) with
  | some name => (lookup draws scope name).map Prod.fst
  | none => (resolve draws scope template).map Json.string

end Template
end Runbook

import Runbook.Command.Verb
import Runbook.Text.Blank

/-!
What is said about how to use a verb: its purpose, its form, and a table each of the verbs below it, of the values it
needs and of its switches.
-/

namespace Runbook.Command

open Runbook.Text

/-- The name of the program. -/
def programName : String := "kest"

/-- The version of the program. -/
def programVersion : String := "0.1.0"

namespace Usage

/-- A row of a table: what is written, how far its indentation is, and what is said of it. -/
structure Row where
  /-- What the row starts with. -/
  label : String
  /-- The length of what determines the width of the column. -/
  length : Nat
  /-- What is added to the width of the column for this row. -/
  gap : Nat := 2
  about : String
  /-- What is added to the text, in brackets. -/
  details : List String := []

/-- A part of a text between brackets. -/
def bracketed (text : String) : String := "[" ++ text ++ "]"

/-- What is said of the value of a switch: the setting it comes from, its standard, and its possible texts. -/
def details (settings : String → Option String) (form : ValueForm) : List String :=
  let setting := form.setting.map fun name => "env: " ++ name ++ "=" ++ (settings name).getD ""
  let standard := form.standard.map fun value => "default: " ++ value
  let names := match form.kind with
    | .oneOf names => some ("possible values: " ++ ", ".intercalate names)
    | _ => none
  (setting.toList ++ standard.toList ++ names.toList).map bracketed

/-- The row of a switch. -/
def switchRow (settings : String → Option String) (switch : Switch) : Row :=
  let form := switch.form
  let value := (form.value.map fun value => " <" ++ value.placeholder ++ ">").getD ""
  let short := form.short.map fun letter => "-" ++ letter.toString
  let long := form.long.map ("--" ++ ·)
  let label := match short, long with
    | some short, some long => short ++ ", " ++ long
    | some short, none => short
    | none, some long => "    " ++ long
    | none, none => ""
  { label := label ++ value
    length := ((long.or short).getD "" ++ value).length
    gap := if long.isSome then 2 else 6
    about := form.about
    details := (form.value.map (details settings)).getD [] }

/-- The row of a value that a verb needs. -/
def operandRow (operand : Operand) : Row :=
  let label := "<" ++ operand.placeholder ++ ">"
  { label, length := label.length, about := operand.about }

/-- The row of a name. -/
def nameRow (name about : String) : Row := { label := name, length := name.length, about }

/-- The text of a row after its label. -/
def Row.text (row : Row) : String := " ".intercalate ((row.about :: row.details).filter (!·.isEmpty))

/-- The width of a line. -/
def lineWidth : Nat := 100

/-- The text of a row does not fit beside a column of the given width, where that takes much of the line. -/
def Row.overflows (width : Nat) (row : Row) : Bool :=
  let taken := width + 12
  taken ≤ lineWidth && 40 < taken && lineWidth - taken < row.about.length + (" ".intercalate row.details).length

/-- The lines of a table. The texts stand beside the labels, or all below them if one does not fit. -/
def table (title : String) (rows : List Row) : List String :=
  let width := (rows.map Row.length).foldl max 0
  let line (row : Row) : String :=
    if rows.any (Row.overflows width) then "  " ++ row.label ++ "\n          " ++ row.text
    else "  " ++ row.label ++ "".pushn ' ' (width + row.gap - row.length) ++ row.text
  if rows.isEmpty then [] else [title ++ ":\n" ++ "\n".intercalate (rows.map line)]

/-- How a verb is written with everything it takes. -/
def form (verb : Verb) : String :=
  let operands := verb.operands.map fun operand => (operandRow operand).label
  let rest := if verb.verbs.isEmpty then operands else ["<COMMAND>"]
  "Usage: " ++ " ".intercalate (programName :: verb.words ++ "[OPTIONS]" :: rest)

/-- The help for a verb. -/
def help (settings : String → Option String) (verb : Verb) : String :=
  let verbs := verb.verbs.map fun verb => nameRow verb.name verb.about
  let explanation := nameRow "help" "Print this message or the help of the given subcommand(s)"
  let parts := [verb.about, form verb] ++
    table "Commands" (if verbs.isEmpty then [] else verbs ++ [explanation]) ++
    table "Arguments" (verb.operands.map operandRow) ++
    table "Options" (verb.switches.map (switchRow settings))
  "\n\n".intercalate parts ++ "\n"

/-- What is said where a command line does not fit. -/
def misuse (verb : Verb) : String :=
  "error: the arguments do not fit\n\n" ++ form verb ++ "\n\nFor more information, try '--help'.\n"

/-- The version of the program. -/
def version : String := programName ++ " " ++ programVersion ++ "\n"

end Usage
end Runbook.Command

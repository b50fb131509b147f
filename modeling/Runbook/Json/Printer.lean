import Runbook.Double.Layout
import Runbook.Json.Basic
import Runbook.Text.Ascii

/-!
Writing JSON text: compact, without any blanks, and indented by two spaces a level.
-/

namespace Runbook.Json

open Runbook.Text

/-- The escape of a character inside a JSON string; only quotes, backslashes and controls need one. -/
def escaped (c : Char) : String :=
  match c with
  | '"' => "\\\""
  | '\\' => "\\\\"
  | '\n' => "\\n"
  | '\r' => "\\r"
  | '\t' => "\\t"
  | '\x08' => "\\b"
  | '\x0c' => "\\f"
  | c =>
    if c.toNat < 0x20 then
      "\\u00" ++ (if c.toNat < 0x10 then "0" else "") ++ hexText c.toNat
    else c.toString

/-- A string of JSON text. -/
def quote (text : String) : String :=
  "\"" ++ text.toList.foldl (fun written c => written ++ escaped c) "" ++ "\""

/-- The text of a double. -/
def realText (x : Double) : String := Double.Layout.json.text x

mutual
/-- The compact text of a value. -/
def compact : Json → String
  | null => "null"
  | bool true => "true"
  | bool false => "false"
  | int n => toString n
  | real x => realText x
  | string text => quote text
  | array items => "[" ++ compactItems items ++ "]"
  | object fields => "\x7b" ++ compactFields fields ++ "\x7d"

/-- The compact texts of items, with commas between them. -/
def compactItems : List Json → String
  | [] => ""
  | [item] => compact item
  | item :: rest => compact item ++ "," ++ compactItems rest

/-- The compact texts of fields, with commas between them. -/
def compactFields : List (String × Json) → String
  | [] => ""
  | [(name, value)] => quote name ++ ":" ++ compact value
  | (name, value) :: rest => quote name ++ ":" ++ compact value ++ "," ++ compactFields rest
end

/-- A new line with its indentation. -/
def newLine (level : Nat) : String := "\n" ++ "".pushn ' ' (2 * level)

mutual
/-- The indented text of a value at a level of nesting. -/
def indented (level : Nat) : Json → String
  | array [] => "[]"
  | object [] => "\x7b\x7d"
  | array items => "[" ++ indentedItems (level + 1) items ++ newLine level ++ "]"
  | object fields => "\x7b" ++ indentedFields (level + 1) fields ++ newLine level ++ "\x7d"
  | null => "null"
  | bool true => "true"
  | bool false => "false"
  | int n => toString n
  | real x => realText x
  | string text => quote text

/-- The indented texts of items, each on its own line. -/
def indentedItems (level : Nat) : List Json → String
  | [] => ""
  | [item] => newLine level ++ indented level item
  | item :: rest => newLine level ++ indented level item ++ "," ++ indentedItems level rest

/-- The indented texts of fields, each on its own line. -/
def indentedFields (level : Nat) : List (String × Json) → String
  | [] => ""
  | [(name, value)] => newLine level ++ quote name ++ ": " ++ indented level value
  | (name, value) :: rest =>
    newLine level ++ quote name ++ ": " ++ indented level value ++ "," ++ indentedFields level rest
end

/-- The indented text of a document. -/
def pretty (value : Json) : String := indented 0 value

end Runbook.Json

import Runbook.Double.Layout
import Runbook.Yaml.Style

/-!
Writing values as YAML documents in block style. A sequence under a key is not indented further than the key.
-/

namespace Runbook.Yaml

open Runbook.Text

/-- The spaces of an indentation. -/
def spaces (count : Nat) : String := "".pushn ' ' count

/-- A text with the end of its line, unless it already ends a line. -/
def ended (text : List Char) : String :=
  String.ofList (if text.getLast?.any isBreak then text else text ++ ['\n'])

/-- The length in octets from which a key is no longer written on the line of its value. -/
def keyLimit : Nat := 128

/-- A key that stands on the line of its value. -/
def isShortKey (key : String) : Bool := key.utf8ByteSize ≤ keyLimit && !key.toList.any isBreak

/-- A key up to the colon after it. -/
def keyText (indent : Nat) (key : String) : String :=
  if isShortKey key then String.ofList (scalarText true (indent + 2) key) ++ ":"
  else "? " ++ ended (scalarText false (indent + 2) key) ++ spaces indent ++ ":"

/-- The text of a value that fits behind an indicator, if it is one. -/
def inlineText? (indent : Nat) : Json → Option String
  | .null => some "null\n"
  | .bool true => some "true\n"
  | .bool false => some "false\n"
  | .int n => some (toString n ++ "\n")
  | .real x => some (Double.Layout.yaml.text x ++ "\n")
  | .string text => some (ended (scalarText false (indent + 2) text))
  | .array [] => some "[]\n"
  | .object [] => some "\x7b\x7d\n"
  | .array _ | .object _ => none

mutual
/-- The pairs of a mapping at an indentation; the first one may stand on a line that has begun. -/
def fieldsText (indent : Nat) (begun : Bool) : List (String × Json) → String
  | [] => ""
  | (key, value) :: rest =>
    (if begun then "" else spaces indent) ++ keyText indent key ++ afterKey indent value ++
      fieldsText indent false rest

/-- The items of a sequence at an indentation; the first one may stand on a line that has begun. -/
def itemsText (indent : Nat) (begun : Bool) : List Json → String
  | [] => ""
  | item :: rest =>
    (if begun then "" else spaces indent) ++ "- " ++ afterDash indent item ++ itemsText indent false rest

/-- A value behind the colon of its key. -/
def afterKey (indent : Nat) : Json → String
  | .object (field :: fields) => "\n" ++ fieldsText (indent + 2) false (field :: fields)
  | .array (item :: items) => "\n" ++ itemsText indent false (item :: items)
  | value => " " ++ (inlineText? indent value).getD "\n"

/-- A value behind the dash of its item. -/
def afterDash (indent : Nat) : Json → String
  | .object (field :: fields) => fieldsText (indent + 2) true (field :: fields)
  | .array (item :: items) => itemsText (indent + 2) true (item :: items)
  | value => (inlineText? indent value).getD "\n"
end

/-- The document of a value. -/
def print : Json → String
  | .object (field :: fields) => fieldsText 0 false (field :: fields)
  | .array (item :: items) => itemsText 0 false (item :: items)
  | value => (inlineText? 0 value).getD "\n"

end Runbook.Yaml

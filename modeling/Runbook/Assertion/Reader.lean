import Runbook.Assertion.Basic
import Runbook.Assertion.Duration
import Runbook.Json.Reader
import Runbook.Path.Basic
import Runbook.Template.Basic

/-!
Reading an assertion from a line such as `body.items[0].id == 7`.
-/

namespace Runbook.Assertion

open Runbook.Text

/-- Why a line is no assertion. -/
inductive Fault where
  | shape (line : String)
  | badPath (error : PathError)
  | extraSide (operator : Operator)
  | missingSide (operator : Operator)
  | badDuration (text : String)
deriving DecidableEq, Repr

/-- The wording of a fault. -/
def Fault.message : Fault → String
  | shape line => "expected \x60lhs op rhs\x60, got '" ++ line ++ "'"
  | badPath error => error.message
  | extraSide operator => "'" ++ operator.text ++ "' takes no right-hand side"
  | missingSide operator => "'" ++ operator.text ++ "' needs a right-hand side"
  | badDuration text => "invalid duration '" ++ text ++ "'"

/-- A character that an operator starts with or holds. -/
def isOperatorChar (c : Char) : Bool := ['=', '!', '<', '>'].contains c

/-- A character of the left-hand side after its first word. -/
def isSubjectChar (c : Char) : Bool := !isBlank c && !isOperatorChar c

/-- The operator at the front of a text, and the text after it. -/
def takeOperator (text : List Char) : Option (Operator × List Char) :=
  Operator.all.findSome? fun operator =>
    (afterFront? operator.text.toList text).map fun rest => (operator, rest)

/-- An operator after blanks, and the trimmed right-hand side, which is a single line. -/
def takeComparison (text : List Char) : Option (Operator × List Char) :=
  match takeOperator (text.dropWhile isBlank) with
  | some (operator, rest) =>
    let side := trim rest
    if side.contains '\n' then none else some (operator, side)
  | none => none

/-- The longest left-hand side of at least `least` characters that a comparison follows. -/
def takeLongest (least : Nat) (run rest : List Char) : Option (List Char × Operator × List Char) :=
  (List.range (run.length + 1 - least)).findSome? fun dropped =>
    let size := run.length - dropped
    (takeComparison (run.drop size ++ rest)).map fun found => (run.take size, found)

/-- The parts of a line: left-hand side, operator and right-hand side. The left-hand side is one of the words, or a word
with the longest tail after which an operator can be read. -/
def takeParts (line : List Char) : Option (List Char × Operator × List Char) :=
  let text := line.dropWhile isBlank
  let word (name : String) : Option (List Char × Operator × List Char) := do
    let rest ← afterFront? name.toList text
    let found ← takeComparison rest
    return (name.toList, found)
  let tail (name : String) (least : Nat) : Option (List Char × Operator × List Char) := do
    let rest ← afterFront? name.toList text
    let (side, found) ← takeLongest least (rest.takeWhile isSubjectChar) (rest.dropWhile isSubjectChar)
    return (name.toList ++ side, found)
  (word "status").orElse fun _ => (word "duration").orElse fun _ =>
    (tail "body." 0).orElse fun _ => (tail "body[" 0).orElse fun _ =>
      (word "body").orElse fun _ => tail "header." 1

/-- The subject of a left-hand side. -/
def readSubject (side : List Char) : Except Fault Subject :=
  match String.ofList side with
  | "status" => .ok .status
  | "duration" => .ok .duration
  | "body" => .ok (.body "")
  | other =>
    match afterFront? "header.".toList side with
    | some name => .ok (.header (String.ofList name))
    | none =>
      let path := (afterFront? "body".toList side).getD other.toList
      let path := String.ofList ((afterFront? ['.'] path).getD path)
      match Path.parse path with
      | .ok _ => .ok (.body path)
      | .error error => .error (.badPath error)

/-- The text between two equal quotes. -/
def unquoted? (text : List Char) : Option (List Char) :=
  match text with
  | first :: rest =>
    if (first == '"' || first == '\'') && rest.getLast? == some first then some rest.dropLast else none
  | [] => none

/-- The literal that a trimmed right-hand side writes for a subject. -/
def readLiteral (subject : Subject) (side : List Char) : Except Fault Literal :=
  let plain := (unquoted? side).getD side
  if Template.hasHoles (String.ofList side) then .ok (.template (String.ofList plain))
  else if subject = .duration then
    match Duration.millis? plain with
    | some value => .ok (.number value)
    | none => .error (.badDuration (String.ofList plain))
  else
    match unquoted? side with
    | some text => .ok (.string (String.ofList text))
    | none => .ok (bare side)
where
  /-- The literal of a side without quotes: a word, a number, a JSON container, and otherwise a string. -/
  bare (side : List Char) : Literal :=
    let text := String.ofList side
    if text == "true" then .bool true
    else if text == "false" then .bool false
    else if text == "null" then .null
    else
      match Double.read? side with
      | some value => .number value
      | none =>
        if side.head? == some '[' || side.head? == some '\x7b' then
          match Json.parse? text with
          | some (.array items) => .json (.array items)
          | some (.object fields) => .json (.object fields)
          | _ => .string text
        else .string text

/-- The assertion of a line. -/
def parse (line : String) : Except Fault Assertion := do
  let source := trimmed line
  match takeParts line.toList with
  | none => throw (.shape source)
  | some (left, operator, right) =>
    let subject ← readSubject left
    if operator.isPresence then
      if right.isEmpty then return ⟨subject, operator, none, source⟩
      throw (.extraSide operator)
    else
      if right.isEmpty then throw (.missingSide operator)
      let literal ← readLiteral subject right
      return ⟨subject, operator, some literal, source⟩

end Runbook.Assertion

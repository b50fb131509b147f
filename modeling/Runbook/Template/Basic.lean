import Runbook.Text.Ascii
import Runbook.Text.Blank

/-!
Templates: texts with placeholders such as `\{\{ name \}\}`. A template is read once, from left to right, into
characters and placeholders.
-/

namespace Runbook.Template

open Runbook.Text

/-- A part of a template. -/
inductive Piece where
  | char (c : Char)
  | hole (name : String)
deriving DecidableEq, Repr

/-- The first character of a variable name. -/
def isNameStart (c : Char) : Bool := isLetter c || c == '_'

/-- A character of a variable name after the first. -/
def isNameChar (c : Char) : Bool := isLetter c || isDigit c || c == '_' || c == '.' || c == '-'

/-- A name in a placeholder: letters, digits, `_`, `.` and `-` after a letter or `_`; a dollar sign may stand first. -/
def takeName (text : List Char) : Option (List Char × List Char) :=
  let (front, body) := match text with
    | '$' :: rest => (['$'], rest)
    | _ => ([], text)
  match body with
  | c :: rest =>
    if isNameStart c then some (front ++ c :: rest.takeWhile isNameChar, rest.dropWhile isNameChar) else none
  | [] => none

/-- The name of the placeholder at the front of a text, and its length. -/
def hole? (text : List Char) : Option (String × Nat) :=
  match text with
  | '\x7b' :: '\x7b' :: inside =>
    match takeName (inside.dropWhile isBlank) with
    | some (name, rest) =>
      match rest.dropWhile isBlank with
      | '\x7d' :: '\x7d' :: after => some (String.ofList name, text.length - after.length)
      | _ => none
    | none => none
  | _ => none

/-- The pieces of a text after the given number of characters, which belong to a placeholder already read. -/
def piecesAfter : Nat → List Char → List Piece
  | _, [] => []
  | skip + 1, _ :: rest => piecesAfter skip rest
  | 0, c :: rest =>
    match hole? (c :: rest) with
    | some (name, length) => .hole name :: piecesAfter (length - 1) rest
    | none => .char c :: piecesAfter 0 rest

/-- The pieces of a template. -/
def pieces (text : String) : List Piece := piecesAfter 0 text.toList

/-- The names of the placeholders of a template, in order. -/
def names (text : String) : List String :=
  (pieces text).filterMap fun
    | .hole name => some name
    | .char _ => none

/-- A text with at least one placeholder. -/
def hasHoles (text : String) : Bool := !(names text).isEmpty

/-- A name that stands for a generated value. -/
def isBuiltin (name : String) : Bool := name.toList.head? == some '$'

/-- The leftmost placeholder of a text: its name and its length. -/
def firstHole? : List Char → Option (String × Nat)
  | [] => none
  | c :: rest =>
    match hole? (c :: rest) with
    | some found => some found
    | none => firstHole? rest

/-- The name of the placeholder that a text is: its leftmost one, if that is as long as the text. -/
def soleHole? (text : String) : Option String :=
  match firstHole? text.toList with
  | some (name, length) => if length == text.toList.length then some name else none
  | none => none

end Runbook.Template

/-!
Cutting a text at separators: at every occurrence, at the first one, and into lines.
-/

namespace Runbook.Text

/-- The pieces of a text between the separators that satisfy the predicate; there is always one more piece than
separators. -/
def splitBy (p : Char → Bool) : List Char → List (List Char)
  | [] => [[]]
  | c :: rest =>
    if p c then [] :: splitBy p rest
    else
      match splitBy p rest with
      | [] => [[c]]
      | piece :: more => (c :: piece) :: more

/-- The pieces of a text between the occurrences of one character. -/
def splitAt (separator : Char) (text : List Char) : List (List Char) :=
  splitBy (· == separator) text

/-- The text before and after the first character that satisfies the predicate. -/
def cutBy? (p : Char → Bool) : List Char → Option (List Char × List Char)
  | [] => none
  | c :: rest => if p c then some ([], rest) else (cutBy? p rest).map fun cut => (c :: cut.1, cut.2)

/-- The text before and after the first occurrence of a character. -/
def cut? (separator : Char) (text : List Char) : Option (List Char × List Char) :=
  cutBy? (· == separator) text

/-- The text after a beginning, if it begins so. -/
def afterFront? : List Char → List Char → Option (List Char)
  | [], text => some text
  | _ :: _, [] => none
  | p :: front, c :: text => if p == c then afterFront? front text else none

/-- The text before an ending, if it ends so. -/
def beforeBack? (back text : List Char) : Option (List Char) :=
  (afterFront? back.reverse text.reverse).map List.reverse

/-- A text holds another one somewhere. -/
def holds (part : List Char) : List Char → Bool
  | [] => part.isEmpty
  | c :: rest => part.isPrefixOf (c :: rest) || holds part rest

/-- A line that a line feed ends also loses the carriage return before it. -/
def dropReturn (line : List Char) : List Char :=
  match line.getLast? with
  | some '\r' => line.dropLast
  | _ => line

/-- The lines of a text: a line feed ends a line, a carriage return before it belongs to the ending, and what
follows the last line feed is a line only if it is not empty. -/
def lines (text : List Char) : List (List Char) :=
  go (splitAt '\n' text)
where
  /-- All pieces but the last one were ended by a line feed. -/
  go : List (List Char) → List (List Char)
    | [] => []
    | [last] => if last.isEmpty then [] else [last]
    | piece :: more => dropReturn piece :: go more

/-- Texts with a separator between each two of them. -/
def joinWith (separator : List Char) : List (List Char) → List Char
  | [] => []
  | [piece] => piece
  | piece :: more => piece ++ separator ++ joinWith separator more

end Runbook.Text

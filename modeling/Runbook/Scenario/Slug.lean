import Runbook.Text.Ascii
import Runbook.Text.Blank

/-!
Identifiers made from names: lower-case letters and digits, with single underscores where the name has separators.
-/

namespace Runbook.Slug

open Runbook.Text

/-- A character that separates the words of a name. -/
def isSeparator (c : Char) : Bool := isBlank c || c == '-' || c == '_' || c == '.'

/-- A character that is kept. -/
def isKept (c : Char) : Bool := isLetter c || isDigit c

/-- The rest of a slug. An underscore is written before a kept character when something stands before it and a
separator lies in between. -/
def continued (started separated : Bool) : List Char → List Char
  | [] => []
  | c :: rest =>
    if isKept c then
      if started && separated then '_' :: lowerChar c :: continued true false rest
      else lowerChar c :: continued true false rest
    else continued started (separated || isSeparator c) rest

/-- The slug of a name. -/
def ofName (name : String) : String := String.ofList (continued false false name.toList)

end Runbook.Slug

/-!
White space by the Unicode property of that name, and the two operations that texts are cleaned with:
trimming at both ends and splitting into words. In columns, blanks are added up to a width that is counted in
characters; a longer text stays as it is.
-/

namespace Runbook.Text

/-- A character is blank when it has the Unicode property White_Space. -/
def isBlank (c : Char) : Bool :=
  let n := c.toNat
  (9 ≤ n && n ≤ 13) || n == 0x20 || n == 0x85 || n == 0xa0 || n == 0x1680 || (0x2000 ≤ n && n ≤ 0x200a) ||
    n == 0x2028 || n == 0x2029 || n == 0x202f || n == 0x205f || n == 0x3000

/-- This text loses the characters at its front that satisfy the predicate. -/
def dropFront (p : Char → Bool) (text : List Char) : List Char :=
  text.dropWhile p

/-- This text loses the characters at its end that satisfy the predicate. -/
def dropBack (p : Char → Bool) (text : List Char) : List Char :=
  text.foldr (fun c rest => if rest.isEmpty && p c then [] else c :: rest) []

/-- This text loses the characters at both ends that satisfy the predicate. -/
def strip (p : Char → Bool) (text : List Char) : List Char :=
  dropBack p (dropFront p text)

/-- This text loses its leading and trailing blanks. -/
def trim (text : List Char) : List Char :=
  strip isBlank text

/-- A text is trimmed when no blank stands at either end. -/
def IsTrimmed (text : List Char) : Prop :=
  trim text = text

instance (text : List Char) : Decidable (IsTrimmed text) :=
  inferInstanceAs (Decidable (trim text = text))

/-- The words of a text are its maximal runs of characters that are not blank. -/
def words (text : List Char) : List (List Char) :=
  (go text).filter (!·.isEmpty)
where
  /-- The pieces between single blanks, empty ones included. -/
  go : List Char → List (List Char)
    | [] => [[]]
    | c :: rest =>
      if isBlank c then [] :: go rest
      else
        match go rest with
        | [] => [[c]]
        | word :: more => (c :: word) :: more

/-- The trimmed form of a string. -/
def trimmed (text : String) : String :=
  String.ofList (trim text.toList)

/-- A text with blanks after it. -/
def padRight (width : Nat) (text : String) : String := text.pushn ' ' (width - text.length)

/-- A text with blanks before it. -/
def padLeft (width : Nat) (text : String) : String := "".pushn ' ' (width - text.length) ++ text

end Runbook.Text

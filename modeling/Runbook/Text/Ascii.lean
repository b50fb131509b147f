/-!
Letters and digits of ASCII. Case is folded for these letters alone; every other character stays as it is.
-/

namespace Runbook.Text

/-- An ASCII letter in lower case. -/
def isLower (c : Char) : Bool := 'a' ≤ c && c ≤ 'z'

/-- An ASCII letter in upper case. -/
def isUpper (c : Char) : Bool := 'A' ≤ c && c ≤ 'Z'

/-- An ASCII letter. -/
def isLetter (c : Char) : Bool := isLower c || isUpper c

/-- An ASCII digit. -/
def isDigit (c : Char) : Bool := '0' ≤ c && c ≤ '9'

/-- An ASCII hexadecimal digit. -/
def isHexDigit (c : Char) : Bool := isDigit c || ('a' ≤ c && c ≤ 'f') || ('A' ≤ c && c ≤ 'F')

/-- The upper case of an ASCII letter; any other character is unchanged. -/
def upperChar (c : Char) : Char := if isLower c then Char.ofNat (c.toNat - 32) else c

/-- The lower case of an ASCII letter; any other character is unchanged. -/
def lowerChar (c : Char) : Char := if isUpper c then Char.ofNat (c.toNat + 32) else c

/-- A text with its ASCII letters in upper case. -/
def upper (text : String) : String := String.ofList (text.toList.map upperChar)

/-- A text with its ASCII letters in lower case. -/
def lower (text : String) : String := String.ofList (text.toList.map lowerChar)

/-- Two names are the same name when they differ at most in the case of ASCII letters. -/
def sameName (first second : String) : Bool :=
  first.toList.map lowerChar == second.toList.map lowerChar

/-- The value of an ASCII digit. -/
def digitValue (c : Char) : Nat := c.toNat - '0'.toNat

/-- The value of an ASCII hexadecimal digit. -/
def hexValue (c : Char) : Nat :=
  if isDigit c then digitValue c
  else if isLower c then c.toNat - 'a'.toNat + 10
  else c.toNat - 'A'.toNat + 10

/-- The number that a list of decimal digits writes. -/
def decimalValue (digits : List Char) : Nat :=
  digits.foldl (fun value c => value * 10 + digitValue c) 0

/-- A non-empty list of decimal digits, with an optional plus sign before it, read as a number. -/
def natural? (text : List Char) : Option Nat :=
  let digits := match text with
    | '+' :: rest => rest
    | _ => text
  if !digits.isEmpty && digits.all isDigit then some (decimalValue digits) else none

/-- A natural number below a bound. -/
def naturalBelow? (bound : Nat) (text : List Char) : Option Nat :=
  (natural? text).filter (· < bound)

/-- A natural number with an optional sign before it. -/
def integer? (text : List Char) : Option Int :=
  match text with
  | '-' :: digits => if digits.head? == some '+' then none else (natural? digits).map fun value => -(value : Int)
  | _ => (natural? text).map Int.ofNat

/-- A number in lower-case hexadecimal digits, without leading zeros. -/
def hexText (n : Nat) : String := String.ofList (Nat.toDigits 16 n)

/-- A number in decimal digits, with zeros in front up to a width. -/
def padded (width n : Nat) : String :=
  let digits := toString n
  String.ofList (List.replicate (width - digits.length) '0') ++ digits

end Runbook.Text

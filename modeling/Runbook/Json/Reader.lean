import Runbook.Json.Number
import Runbook.Text.Pieces

/-!
Reading JSON text. `Json.read?` gives a document with the fields of every object as written; `Json.parse?` gives its
canonical form. A text is no document when it nests deeper than the limit or when anything but blanks follows the value.
-/

namespace Runbook.Json

open Runbook.Text

/-- The greatest number of arrays and objects around a value. -/
def depthLimit : Nat := 127

/-- A blank of JSON text. -/
def isSpace (c : Char) : Bool := c == ' ' || c == '\n' || c == '\t' || c == '\r'

/-- The code unit that four hexadecimal digits write. -/
def codeUnit? (a b c d : Char) : Option Nat :=
  if [a, b, c, d].all isHexDigit then
    some (((hexValue a * 16 + hexValue b) * 16 + hexValue c) * 16 + hexValue d)
  else none

/-- The character of an escape with a single letter. -/
def simpleEscape? : Char → Option Char
  | '"' => some '"'
  | '\\' => some '\\'
  | '/' => some '/'
  | 'b' => some '\x08'
  | 'f' => some '\x0c'
  | 'n' => some '\n'
  | 'r' => some '\r'
  | 't' => some '\t'
  | _ => none

/-- The characters of a string up to its closing quote, and the text after it. Two escaped surrogates make one
character; a lone surrogate makes none. -/
def readString : List Char → Option (List Char × List Char)
  | [] => none
  | '"' :: rest => some ([], rest)
  | '\\' :: 'u' :: a :: b :: c :: d :: '\\' :: 'u' :: e :: f :: g :: h :: rest => do
    let high ← codeUnit? a b c d
    if 0xd800 ≤ high && high < 0xdc00 then
      let low ← codeUnit? e f g h
      if 0xdc00 ≤ low && low < 0xe000 then
        let (text, after) ← readString rest
        some (Char.ofNat (0x10000 + (high - 0xd800) * 0x400 + (low - 0xdc00)) :: text, after)
      else none
    else if 0xdc00 ≤ high && high < 0xe000 then none
    else
      let (text, after) ← readString ('\\' :: 'u' :: e :: f :: g :: h :: rest)
      some (Char.ofNat high :: text, after)
  | '\\' :: 'u' :: a :: b :: c :: d :: rest => do
    let unit ← codeUnit? a b c d
    if 0xd800 ≤ unit && unit < 0xe000 then none
    let (text, after) ← readString rest
    some (Char.ofNat unit :: text, after)
  | '\\' :: mark :: rest => do
    let c ← simpleEscape? mark
    let (text, after) ← readString rest
    some (c :: text, after)
  | c :: rest => do
    if c.toNat < 0x20 || c == '\\' then none
    let (text, after) ← readString rest
    some (c :: text, after)

/-- A word at the front of a text that stands for a value. -/
def readWord (word : List Char) (value : Json) (text : List Char) : Option (Json × List Char) :=
  (afterFront? word text).map fun rest => (value, rest)

mutual
/-- The value at the front of a text. The fuel bounds the characters read, the depth the nesting below. -/
def readValue : Nat → Nat → List Char → Option (Json × List Char)
  | 0, _, _ => none
  | fuel + 1, depth, text =>
    match text.dropWhile isSpace with
    | '"' :: rest => (readString rest).map fun read => (.string (String.ofList read.1), read.2)
    | '[' :: rest =>
      match depth, rest.dropWhile isSpace with
      | 0, _ => none
      | _ + 1, ']' :: after => some (.array [], after)
      | inner + 1, inside => (readItems fuel inner inside).map fun read => (.array read.1, read.2)
    | '{' :: rest =>
      match depth, rest.dropWhile isSpace with
      | 0, _ => none
      | _ + 1, '}' :: after => some (.object [], after)
      | inner + 1, inside => (readFields fuel inner inside).map fun read => (.object read.1, read.2)
    | 'n' :: rest => readWord ['u', 'l', 'l'] .null rest
    | 't' :: rest => readWord ['r', 'u', 'e'] (.bool true) rest
    | 'f' :: rest => readWord ['a', 'l', 's', 'e'] (.bool false) rest
    | inside => readNumber inside

/-- The items up to the closing bracket; there is at least one. -/
def readItems : Nat → Nat → List Char → Option (List Json × List Char)
  | 0, _, _ => none
  | fuel + 1, depth, text => do
    let (item, rest) ← readValue fuel depth text
    match rest.dropWhile isSpace with
    | ']' :: after => some ([item], after)
    | ',' :: more =>
      let (items, after) ← readItems fuel depth more
      some (item :: items, after)
    | _ => none

/-- The fields up to the closing brace; there is at least one. -/
def readFields : Nat → Nat → List Char → Option (List (String × Json) × List Char)
  | 0, _, _ => none
  | fuel + 1, depth, text =>
    match text.dropWhile isSpace with
    | '"' :: rest => do
      let (name, rest) ← readString rest
      match rest.dropWhile isSpace with
      | ':' :: rest =>
        let (value, rest) ← readValue fuel depth rest
        match rest.dropWhile isSpace with
        | '}' :: after => some ([(String.ofList name, value)], after)
        | ',' :: more =>
          let (fields, after) ← readFields fuel depth more
          some ((String.ofList name, value) :: fields, after)
        | _ => none
      | _ => none
    | _ => none
end

/-- The document that a text is, with fields as written. -/
def read? (text : String) : Option Json :=
  match readValue (text.length + 1) depthLimit text.toList with
  | some (value, rest) => if rest.all isSpace then some value else none
  | none => none

/-- The canonical document that a text is. -/
def parse? (text : String) : Option Json := (read? text).map canonical

end Runbook.Json

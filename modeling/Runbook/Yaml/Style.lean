import Runbook.Text.Ascii
import Runbook.Yaml.Readable

/-!
How a text is written as a YAML scalar: plain where that reads back as the text and nothing in it is an indicator,
in single quotes where that is enough, as a literal block where it has lines, and else in double quotes.
-/

namespace Runbook.Yaml

open Runbook.Text

/-- The written forms of a scalar. -/
inductive Style where
  | plain
  | single
  | double
  | literal
deriving DecidableEq, Repr

/-- A character that can be written as itself. -/
def isPrintable (c : Char) : Bool :=
  c == '\n' || (' ' ≤ c && c ≤ '~') || ('\u00a0' ≤ c && c ≠ '\ufeff' && c ≠ '\ufffe' && c ≠ '\uffff')

/-- A character that is an indicator at the front of a scalar, with the character after it. -/
def isLeadingIndicator (c : Char) (next : Option Char) : Bool :=
  "#,[]{}&*!|>'\"%@\x60".toList.contains c || (['?', ':', '-'].contains c && next.all isGap)

/-- A character that is an indicator inside a scalar, with the characters around it. -/
def isInnerIndicator (previous c : Char) (next : Option Char) : Bool :=
  (c == ':' && next.all isGap) || (c == '#' && isGap previous)

/-- An indicator stands somewhere behind a character. -/
def hasInnerIndicator : Char → List Char → Bool
  | _, [] => false
  | previous, c :: rest => isInnerIndicator previous c rest.head? || hasInnerIndicator c rest

/-- An indicator stands where a plain scalar in a block cannot have it. -/
def hasIndicator (text : List Char) : Bool :=
  ['-', '-', '-'].isPrefixOf text || ['.', '.', '.'].isPrefixOf text ||
    match text with
    | [] => false
    | c :: rest => isLeadingIndicator c rest.head? || hasInnerIndicator c rest

/-- Two characters of the given kinds stand side by side. -/
def hasPair (first second : Char → Bool) : List Char → Bool
  | a :: b :: rest => (first a && second b) || hasPair first second (b :: rest)
  | _ => false

/-- A space. -/
def isSpaceChar (c : Char) : Bool := c == ' '

/-- A text that neither quotes nor lines can hold as it is: some character is not printable, or a space stands before
the end of a line. -/
def isSpecial (text : List Char) : Bool := !text.all isPrintable || hasPair isSpaceChar isBreak text

/-- A text that a plain scalar in a block can be. -/
def isPlain (text : List Char) : Bool :=
  !isSpecial text && !text.any isBreak && !hasIndicator text &&
    text.head? ≠ some ' ' && text.getLast? ≠ some ' '

/-- A text that single quotes can hold. -/
def isSingle (text : List Char) : Bool := !isSpecial text && !hasPair isBreak isSpaceChar text

/-- A text that a literal block can hold. -/
def isLiteral (text : List Char) : Bool := !text.isEmpty && !isSpecial text && text.getLast? ≠ some ' '

/-- A text that as a plain scalar would not be a text, or looks like a number with leading zeros. -/
def isMistakable (text : String) : Bool :=
  match plainValue? text with
  | some (.string _) => hasLeadingZero text.toList
  | _ => true

/-- The written form of a text; a key on its line is never a block and never has several lines. -/
def Style.of (onKeyLine : Bool) (text : String) : Style :=
  let chars := text.toList
  if onKeyLine && chars.any isBreak then .double
  else if chars.contains '\n' then if isLiteral chars && !onKeyLine then .literal else .double
  else if !isMistakable text && isPlain chars then .plain
  else if isSingle chars then .single
  else .double

/-- A text in single quotes. After the end of a line the next one is indented. -/
def singleQuoted (indent : Nat) (text : List Char) : List Char :=
  ['\''] ++ go false text ++ ['\'']
where
  /-- The text after the start, or after the end of a line. -/
  go : Bool → List Char → List Char
    | broken, [] => if broken then List.replicate indent ' ' else []
    | broken, c :: rest =>
      if c == ' ' then c :: go broken rest
      else if isBreak c then c :: go true rest
      else
        (if broken then List.replicate indent ' ' else []) ++ (if c == '\'' then ['\'', '\''] else [c]) ++
          go false rest

/-- The letter that escapes a character in double quotes. -/
def escapeLetter? : Char → Option Char
  | '\x00' => some '0'
  | '\x07' => some 'a'
  | '\x08' => some 'b'
  | '\t' => some 't'
  | '\n' => some 'n'
  | '\x0b' => some 'v'
  | '\x0c' => some 'f'
  | '\r' => some 'r'
  | '\x1b' => some 'e'
  | '"' => some '"'
  | '\\' => some '\\'
  | '\u0085' => some 'N'
  | '\u2028' => some 'L'
  | '\u2029' => some 'P'
  | _ => none

/-- The hexadecimal digits of a number in capital letters, up to a width. -/
def hexPadded (width n : Nat) : List Char :=
  let digits := (hexText n).toList.map upperChar
  List.replicate (width - digits.length) '0' ++ digits

/-- A character in double quotes. -/
def doubleEscaped (c : Char) : List Char :=
  match escapeLetter? c with
  | some letter => ['\\', letter]
  | none =>
    if isPrintable c then [c]
    else if c.toNat ≤ 0xff then '\\' :: 'x' :: hexPadded 2 c.toNat
    else if c.toNat ≤ 0xffff then '\\' :: 'u' :: hexPadded 4 c.toNat
    else '\\' :: 'U' :: hexPadded 8 c.toNat

/-- A text in double quotes. -/
def doubleQuoted (text : List Char) : List Char := ['"'] ++ text.flatMap doubleEscaped ++ ['"']

/-- The marks of a literal block: its indentation where the text starts with a gap, and what becomes of its last
lines. -/
def literalMarks (text : List Char) : List Char :=
  let indentation := if text.head?.any fun c => c == ' ' || isBreak c then ['2'] else []
  let ending := match text.reverse with
    | last :: before =>
      if !isBreak last then ['-']
      else if before.head?.all isBreak then ['+']
      else []
    | [] => ['-']
  '|' :: indentation ++ ending

/-- The lines of a literal block, each indented unless it is empty. -/
def literalLines (indent : Nat) (text : List Char) : List Char :=
  go true text
where
  /-- The text at the start of a line, or inside one. -/
  go : Bool → List Char → List Char
    | _, [] => []
    | fresh, c :: rest =>
      if isBreak c then c :: go true rest
      else (if fresh then List.replicate indent ' ' else []) ++ c :: go false rest

/-- A text as a scalar after its indicator, without the end of its line; its further lines have the given
indentation. -/
def scalarText (onKeyLine : Bool) (indent : Nat) (text : String) : List Char :=
  let chars := text.toList
  match Style.of onKeyLine text with
  | .plain => chars
  | .single => singleQuoted indent chars
  | .double => doubleQuoted chars
  | .literal => literalMarks chars ++ ['\n'] ++ literalLines indent chars

end Runbook.Yaml

import Runbook.Text.Ascii

/-!
The tokens of YAML text, and the reader's position in a text.
-/

namespace Runbook.Yaml

/-- A token. The block tokens are not written in the text; they come from its indentation. -/
inductive Token where
  | directive
  | documentStart
  | documentEnd
  | blockSequenceStart
  | blockMappingStart
  | blockEnd
  | flowSequenceStart
  | flowSequenceEnd
  | flowMappingStart
  | flowMappingEnd
  | blockEntry
  | flowEntry
  | key
  | value
  | alias (name : String)
  | anchor (name : String)
  | tag (text : String)
  /-- A scalar; it is plain when it has neither quotes nor a block header. -/
  | scalar (plain : Bool) (text : String)
deriving DecidableEq, Repr

/-- A position in a text, with the text from there on. -/
structure Cursor where
  rest : List Char
  index : Nat := 0
  line : Nat := 0
  column : Nat := 0

/-- A character that ends a line. -/
def isBreak (c : Char) : Bool := c == '\n' || c == '\r' || c == '\u0085' || c == '\u2028' || c == '\u2029'

/-- A space or a tab. -/
def isSpace (c : Char) : Bool := c == ' ' || c == '\t'

/-- A space, a tab or the end of a line. -/
def isGap (c : Char) : Bool := isSpace c || isBreak c

/-- A character that YAML text may hold. -/
def isAllowed (c : Char) : Bool :=
  let n := c.toNat
  n == 0x09 || n == 0x0a || n == 0x0d || (0x20 ≤ n && n ≤ 0x7e) || n == 0x85 || (0xa0 ≤ n && n ≤ 0xd7ff) ||
    (0xe000 ≤ n && n ≤ 0xfffd && n != 0xfeff) || 0x10000 ≤ n

namespace Cursor

/-- The character at the position. -/
def head? (cursor : Cursor) : Option Char := cursor.rest.head?

/-- The character some places after the position. -/
def peek? (cursor : Cursor) (offset : Nat) : Option Char := cursor.rest[offset]?

/-- The character at an offset satisfies a predicate. -/
def sees (cursor : Cursor) (offset : Nat) (p : Char → Bool) : Bool := (cursor.peek? offset).any p

/-- At an offset there is a gap, or the text ends. -/
def gapAt (cursor : Cursor) (offset : Nat) : Bool := (cursor.peek? offset).all isGap

/-- The position some characters on, on the same line. -/
def skip (cursor : Cursor) (count : Nat) : Cursor :=
  { cursor with rest := cursor.rest.drop count, index := cursor.index + count, column := cursor.column + count }

/-- The position after the characters at the front that satisfy a predicate, on the same line. -/
def skipWhile (cursor : Cursor) (p : Char → Bool) : Cursor := cursor.skip (cursor.rest.takeWhile p).length

/-- The position after the end of a line, and the characters that the end of a line stands for. -/
def nextLine (cursor : Cursor) : List Char × Cursor :=
  match cursor.rest with
  | '\r' :: '\n' :: rest => (['\n'], ⟨rest, cursor.index + 2, cursor.line + 1, 0⟩)
  | c :: rest =>
    (if c == '\u2028' || c == '\u2029' then [c] else ['\n'], ⟨rest, cursor.index + 1, cursor.line + 1, 0⟩)
  | [] => ([], cursor)

/-- Three equal marks at the start of a line that separate documents. -/
def atMark (cursor : Cursor) (mark : Char) : Bool :=
  cursor.column == 0 && cursor.rest.take 3 == [mark, mark, mark] && cursor.gapAt 3

/-- A separator of documents, of either kind. -/
def atDocumentMark (cursor : Cursor) : Bool := cursor.atMark '-' || cursor.atMark '.'

end Cursor
end Runbook.Yaml

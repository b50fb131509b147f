import Runbook.Text.Blank
import Runbook.Yaml.Scalar

/-!
From YAML text to tokens. Indentation is turned into block tokens, and a key is recognised when the colon after it is
reached: it has to stand on one line and within a bounded distance.
-/

namespace Runbook.Yaml

open Runbook.Text

/-- A place where a key may have started, with the index of its first token. -/
structure PossibleKey where
  token : Nat
  index : Nat
  line : Nat
  column : Nat
  /-- Nothing but a key can stand here. -/
  isRequired : Bool

/-- The state of a scan. -/
structure Scan where
  cursor : Cursor
  tokens : List Token := []
  /-- The column of the block around the position; -1 outside all blocks. -/
  indent : Int := -1
  /-- The columns of the blocks around that one. -/
  outer : List Int := []
  /-- A key may start at the position. -/
  mayStartKey : Bool := true
  /-- The possible key of the position and of each flow collection around it, innermost first. -/
  keys : List (Option PossibleKey) := [none]

namespace Scan

/-- The position is inside a flow collection. -/
def inFlow (scan : Scan) : Bool := 1 < scan.keys.length

/-- The scan with a token added at the end. -/
def push (scan : Scan) (token : Token) : Scan := { scan with tokens := scan.tokens ++ [token] }

/-- The farthest distance between the start of a key and its colon. -/
def keyReach : Nat := 1024

/-- A possible key whose colon can no longer come. -/
def isStale (scan : Scan) (key : PossibleKey) : Bool :=
  key.line < scan.cursor.line || key.index + keyReach < scan.cursor.index

/-- The possible keys without those that are stale; a stale one that was required is an error. -/
def dropStale (scan : Scan) : Option Scan := do
  let keys ← scan.keys.mapM fun slot =>
    match slot with
    | some key => if scan.isStale key then (if key.isRequired then none else some none) else some slot
    | none => some none
  return { scan with keys }

/-- No key starts where one was possible; if one was required that is an error. -/
def removeKey (scan : Scan) : Option Scan :=
  match scan.keys with
  | some key :: rest => if key.isRequired then none else some { scan with keys := none :: rest }
  | _ => some scan

/-- A key may start here, if one may start at all. -/
def saveKey (scan : Scan) : Option Scan :=
  if scan.mayStartKey then do
    let cursor := scan.cursor
    let isRequired := !scan.inFlow && scan.indent == cursor.column
    let scan ← scan.removeKey
    return { scan with
      keys := some ⟨scan.tokens.length, cursor.index, cursor.line, cursor.column, isRequired⟩ :: scan.keys.drop 1 }
  else some scan

/-- A block of a greater indentation opens before the token with an index. -/
def openBlock (scan : Scan) (column index : Nat) (token : Token) : Scan :=
  if !scan.inFlow && scan.indent < column then
    { scan with
      outer := scan.indent :: scan.outer
      indent := column
      tokens := scan.tokens.take index ++ token :: scan.tokens.drop index }
  else scan

/-- The blocks whose column is greater than the given one close. -/
def closeBlocks (scan : Scan) (column : Int) : Scan :=
  if scan.inFlow then scan
  else
    let columns := scan.indent :: scan.outer
    let closing := columns.takeWhile (column < ·)
    match columns.drop closing.length with
    | indent :: outer =>
      { scan with indent, outer, tokens := scan.tokens ++ List.replicate closing.length .blockEnd }
    | [] => scan

/-- The scan some characters on. -/
def skip (scan : Scan) (count : Nat) : Scan := { scan with cursor := scan.cursor.skip count }

/-- The scan at the next token: after blanks, comments and line ends. A line end outside flow collections lets a key
start. -/
def toNextToken : Nat → Scan → Scan
  | 0, scan => scan
  | fuel + 1, scan =>
    let isSkipped (c : Char) : Bool := c == ' ' || ((scan.inFlow || !scan.mayStartKey) && c == '\t')
    let cursor := scan.cursor.skipWhile isSkipped
    let cursor := if cursor.head? == some '#' then cursor.skipWhile (!isBreak ·) else cursor
    if cursor.sees 0 isBreak then
      toNextToken fuel { scan with cursor := cursor.nextLine.2, mayStartKey := scan.mayStartKey || !scan.inFlow }
    else { scan with cursor }

/-- A character of the name of an anchor. -/
def isAnchorChar (c : Char) : Bool := isLetter c || isDigit c || c == '_' || c == '-'

/-- The token of an anchor or alias and its name. -/
def fetchAnchor (scan : Scan) (token : String → Token) : Option Scan := do
  let scan ← scan.saveKey
  let cursor := scan.cursor.skip 1
  let name := cursor.rest.takeWhile isAnchorChar
  let cursor := cursor.skip name.length
  if name.isEmpty || !(cursor.gapAt 0 || cursor.sees 0 fun c => ['?', ':', ',', ']', '\x7d', '%', '@', '\x60'].contains c) then
    none
  return ({ scan with cursor, mayStartKey := false }).push (token (String.ofList name))

/-- A character of a tag. -/
def isTagChar (inFlow : Bool) (c : Char) : Bool :=
  isAnchorChar c || [';', '/', '?', ':', '@', '&', '=', '+', '$', '.', '!', '~', '*', '\'', '(', ')', '%', '#'].contains c ||
    (!inFlow && [',', '[', ']'].contains c)

/-- The full form of a tag: one with two marks is in the core name space. A tag with a named handle is an error. -/
def fullTag? (text : List Char) : Option String :=
  match text with
  | '!' :: '!' :: suffix => some ("tag:yaml.org,2002:" ++ String.ofList suffix)
  | '!' :: suffix => if suffix.contains '!' then none else some (String.ofList text)
  | _ => none

/-- The token of a tag. -/
def fetchTag (scan : Scan) : Option Scan := do
  let scan ← scan.saveKey
  let (text, cursor) ← match scan.cursor.rest with
    | '!' :: '<' :: rest =>
      let uri := rest.takeWhile (isTagChar false)
      if uri.isEmpty || rest[uri.length]? != some '>' then none
      else some (String.ofList uri, scan.cursor.skip (uri.length + 3))
    | rest =>
      let text := rest.takeWhile (isTagChar scan.inFlow)
      (fullTag? text).map fun tag => (tag, scan.cursor.skip text.length)
  if !(cursor.gapAt 0 || (scan.inFlow && cursor.head? == some ',')) then none
  return ({ scan with cursor, mayStartKey := false }).push (.tag text)

/-- The token of an entry of a block sequence, or of a dash in a flow collection. -/
def fetchBlockEntry (scan : Scan) : Option Scan := do
  if !scan.inFlow && !scan.mayStartKey then none
  let scan := scan.openBlock scan.cursor.column scan.tokens.length .blockSequenceStart
  let scan ← scan.removeKey
  return ({ scan with mayStartKey := true }.skip 1).push .blockEntry

/-- The token of a question mark before a key. -/
def fetchKey (scan : Scan) : Option Scan := do
  if !scan.inFlow && !scan.mayStartKey then none
  let scan := scan.openBlock scan.cursor.column scan.tokens.length .blockMappingStart
  let scan ← scan.removeKey
  return ({ scan with mayStartKey := !scan.inFlow }.skip 1).push .key

/-- The token of a colon after a key. A key that was possible is one now. -/
def fetchValue (scan : Scan) : Option Scan :=
  match scan.keys with
  | some key :: rest =>
    let marked : Scan := { scan with
      tokens := scan.tokens.take key.token ++ .key :: scan.tokens.drop key.token
      keys := none :: rest
      mayStartKey := false }
    some (((marked.openBlock key.column key.token .blockMappingStart).skip 1).push .value)
  | _ => do
    if !scan.inFlow && !scan.mayStartKey then none
    let scan := scan.openBlock scan.cursor.column scan.tokens.length .blockMappingStart
    return ({ scan with mayStartKey := !scan.inFlow }.skip 1).push .value

/-- The start of a flow collection. -/
def fetchFlowStart (scan : Scan) (token : Token) : Option Scan := do
  let scan ← scan.saveKey
  return ({ scan with keys := none :: scan.keys, mayStartKey := true }.skip 1).push token

/-- The end of a flow collection. -/
def fetchFlowEnd (scan : Scan) (token : Token) : Option Scan := do
  let scan ← scan.removeKey
  let keys := if scan.inFlow then scan.keys.drop 1 else scan.keys
  return ({ scan with keys, mayStartKey := false }.skip 1).push token

/-- The comma between entries of a flow collection. -/
def fetchFlowEntry (scan : Scan) : Option Scan := do
  let scan ← scan.removeKey
  return ({ scan with mayStartKey := true }.skip 1).push .flowEntry

/-- A separator of documents. -/
def fetchDocumentMark (scan : Scan) (token : Token) : Option Scan := do
  let scan ← (scan.closeBlocks (-1)).removeKey
  return ({ scan with mayStartKey := false }.skip 3).push token

/-- A directive line: the version of the notation, which has to be a known one, or a name for tags. -/
def fetchDirective (scan : Scan) : Option Scan := do
  let scan ← (scan.closeBlocks (-1)).removeKey
  let line := scan.cursor.rest.takeWhile (!isBreak ·)
  let content := line.takeWhile (· != '#')
  match words content with
  | [name, version] =>
    if name == "%YAML".toList && ["1.1".toList, "1.2".toList].contains version then
      return ({ scan with mayStartKey := false }.skip line.length).push .directive
    else none
  | [name, _, _] =>
    if name == "%TAG".toList then return ({ scan with mayStartKey := false }.skip line.length).push .directive
    else none
  | _ => none

/-- A scalar in quotes. -/
def fetchQuoted (scan : Scan) (single : Bool) : Option Scan := do
  let scan ← scan.saveKey
  let start := scan.cursor.skip 1
  let (text, cursor) ← quotedRest single (start.rest.length + 1) [] start
  return ({ scan with cursor, mayStartKey := false }).push (.scalar false (String.ofList text))

/-- A scalar in a block. -/
def fetchBlockScalar (scan : Scan) (literal : Bool) : Option Scan := do
  let scan ← scan.removeKey
  let (text, cursor) ← blockScalar literal scan.indent (scan.cursor.skip 1)
  return ({ scan with cursor, mayStartKey := true }).push (.scalar false (String.ofList text))

/-- A plain scalar. If it ends with a line, a key may follow. -/
def fetchPlain (scan : Scan) : Option Scan := do
  let scan ← scan.saveKey
  let indent := (scan.indent + 1).toNat
  let (text, broken, cursor) ← plainRest scan.inFlow indent (scan.cursor.rest.length + 1) [] {} scan.cursor
  return ({ scan with cursor, mayStartKey := broken }).push (.scalar true (String.ofList text))

/-- A mark that a plain scalar cannot start with, except for a few before other characters. -/
def isIndicator (c : Char) : Bool :=
  ['-', '?', ':', ',', '[', ']', '\x7b', '\x7d', '#', '&', '*', '!', '|', '>', '\'', '"', '%', '@', '\x60'].contains c

/-- A plain scalar can start at the position. -/
def startsPlain (scan : Scan) : Bool :=
  let cursor := scan.cursor
  match cursor.head? with
  | none => false
  | some c =>
    !(isGap c || isIndicator c) || (c == '-' && !cursor.sees 1 isSpace) ||
      (!scan.inFlow && (c == '?' || c == ':') && !cursor.gapAt 1)

/-- The next token, at whose first character the scan stands. -/
def fetch (scan : Scan) (c : Char) : Option Scan :=
  let cursor := scan.cursor
  if cursor.column == 0 && c == '%' then scan.fetchDirective
  else if cursor.atMark '-' then scan.fetchDocumentMark .documentStart
  else if cursor.atMark '.' then scan.fetchDocumentMark .documentEnd
  else if c == '[' then scan.fetchFlowStart .flowSequenceStart
  else if c == '\x7b' then scan.fetchFlowStart .flowMappingStart
  else if c == ']' then scan.fetchFlowEnd .flowSequenceEnd
  else if c == '\x7d' then scan.fetchFlowEnd .flowMappingEnd
  else if c == ',' then scan.fetchFlowEntry
  else if c == '-' && cursor.gapAt 1 then scan.fetchBlockEntry
  else if c == '?' && (scan.inFlow || cursor.gapAt 1) then scan.fetchKey
  else if c == ':' && (scan.inFlow || cursor.gapAt 1) then scan.fetchValue
  else if c == '*' then scan.fetchAnchor .alias
  else if c == '&' then scan.fetchAnchor .anchor
  else if c == '!' then scan.fetchTag
  else if c == '|' && !scan.inFlow then scan.fetchBlockScalar true
  else if c == '>' && !scan.inFlow then scan.fetchBlockScalar false
  else if c == '\'' then scan.fetchQuoted true
  else if c == '"' then scan.fetchQuoted false
  else if scan.startsPlain then scan.fetchPlain
  else none

/-- The tokens of the rest of a text. The fuel bounds their number. -/
def run : Nat → Scan → Option (List Token)
  | 0, _ => none
  | fuel + 1, scan => do
    let scan ← (toNextToken (scan.cursor.rest.length + 1) scan).dropStale
    let scan := scan.closeBlocks scan.cursor.column
    match scan.cursor.head? with
    | some c => run fuel (← scan.fetch c)
    | none =>
      -- The end of the text also ends its last line.
      let ended := { scan with cursor := { scan.cursor with line := scan.cursor.line + 1 } }
      let ended ← (← (ended.closeBlocks (-1)).removeKey).dropStale
      return ended.tokens

end Scan

/-- The tokens of a text; a byte order mark may stand first. -/
def tokens? (text : String) : Option (List Token) :=
  let chars := match text.toList with
    | '\ufeff' :: rest => rest
    | chars => chars
  if chars.all isAllowed then Scan.run (2 * chars.length + 4) { cursor := { rest := chars } } else none

end Runbook.Yaml

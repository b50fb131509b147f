import Runbook.Yaml.Token

/-!
The scalars of YAML text: plain, in quotes, and in blocks. Line ends inside a scalar are folded: a single one becomes a
space, and of several the first is dropped.
-/

namespace Runbook.Yaml

open Runbook.Text

/-- White space inside a scalar that is not yet part of its text. -/
structure Gap where
  /-- Spaces and tabs on one line. -/
  spaces : List Char := []
  /-- The first line end. -/
  first : List Char := []
  /-- The further line ends. -/
  further : List Char := []
  /-- A line has ended. -/
  broken : Bool := false

/-- What a gap adds to the text of a scalar. -/
def Gap.folded (gap : Gap) : List Char :=
  if gap.broken then
    if gap.first.head? == some '\n' then (if gap.further.isEmpty then [' '] else gap.further)
    else gap.first ++ gap.further
  else gap.spaces

/-- The gap at a position: spaces, tabs and line ends. A tab before the given column of a new line is an error where
indentation counts. -/
def takeGap (tabLimit : Nat) : Nat → Gap → Cursor → Option (Gap × Cursor)
  | 0, gap, cursor => some (gap, cursor)
  | fuel + 1, gap, cursor =>
    match cursor.head? with
    | some c =>
      if isSpace c then
        if gap.broken then
          if c == '\t' && cursor.column < tabLimit then none else takeGap tabLimit fuel gap (cursor.skip 1)
        else takeGap tabLimit fuel { gap with spaces := gap.spaces ++ [c] } (cursor.skip 1)
      else if isBreak c then
        let (ending, next) := cursor.nextLine
        if gap.broken then takeGap tabLimit fuel { gap with further := gap.further ++ ending } next
        else takeGap tabLimit fuel { gap with first := ending, broken := true } next
      else some (gap, cursor)
    | none => some (gap, cursor)

/-- A bracket, brace or comma of a flow collection. -/
def isFlowMark (c : Char) : Bool := [',', '[', ']', '\x7b', '\x7d'].contains c

/-- The number of characters of a plain scalar up to the next gap or its end; in a flow collection a colon directly
before a mark is an error. -/
def plainRun (inFlow : Bool) : List Char → Option Nat
  | [] => some 0
  | c :: rest =>
    let next := rest.head?
    if isGap c then some 0
    else if c == ':' && inFlow && next.any fun d => isFlowMark d || d == '?' then none
    else if c == ':' && next.all isGap then some 0
    else if inFlow && isFlowMark c then some 0
    else (plainRun inFlow rest).map (· + 1)

/-- The rest of a plain scalar after its text so far and a gap, and whether the last thing read is the end of a line.
The scalar ends before a comment, before a document mark, and at a line indented less than the given column. -/
def plainRest (inFlow : Bool) (indent : Nat) : Nat → List Char → Gap → Cursor →
    Option (List Char × Bool × Cursor)
  | 0, _, _, _ => none
  | fuel + 1, text, gap, cursor =>
    if cursor.atDocumentMark || cursor.head? == some '#' then some (text, gap.broken, cursor)
    else do
      let count ← plainRun inFlow cursor.rest
      let (text, gap) := if count = 0 then (text, gap)
        else (text ++ gap.folded ++ cursor.rest.take count, {})
      let cursor := cursor.skip count
      if !cursor.sees 0 isGap then return (text, gap.broken, cursor)
      let (gap, cursor) ← takeGap indent (cursor.rest.length + 1) gap cursor
      if !inFlow && cursor.column < indent then return (text, gap.broken, cursor)
      plainRest inFlow indent fuel text gap cursor

/-- The character of an escape with a fixed meaning. -/
def escape? : Char → Option Char
  | '0' => some '\x00'
  | 'a' => some '\x07'
  | 'b' => some '\x08'
  | 't' | '\t' => some '\t'
  | 'n' => some '\n'
  | 'v' => some '\x0b'
  | 'f' => some '\x0c'
  | 'r' => some '\r'
  | 'e' => some '\x1b'
  | ' ' => some ' '
  | '"' => some '"'
  | '/' => some '/'
  | '\\' => some '\\'
  | 'N' => some '\u0085'
  | '_' => some '\u00a0'
  | 'L' => some '\u2028'
  | 'P' => some '\u2029'
  | _ => none

/-- The number of hexadecimal digits after an escape that needs them. -/
def escapeDigits? : Char → Option Nat
  | 'x' => some 2
  | 'u' => some 4
  | 'U' => some 8
  | _ => none

/-- The character of an escape, and the number of characters of the escape after its backslash. -/
def readEscape (rest : List Char) : Option (Char × Nat) := do
  let mark ← rest.head?
  match escapeDigits? mark with
  | some count =>
    let digits := (rest.drop 1).take count
    if digits.length < count || !digits.all isHexDigit then none
    let code := digits.foldl (fun value c => value * 16 + hexValue c) 0
    if (0xd800 ≤ code && code < 0xe000) || 0x10ffff < code then none
    return (Char.ofNat code, count + 1)
  | none => return (← escape? mark, 1)

/-- A run of a quoted scalar without gaps: its text, whether it ends in an escaped line end, and the position after. -/
def quotedRun (single : Bool) : Nat → Cursor → Option (List Char × Bool × Cursor)
  | 0, _ => none
  | fuel + 1, cursor =>
    match cursor.rest with
    | [] => none
    | c :: rest =>
      if isGap c then some ([], false, cursor)
      else if single then
        if c == '\'' then
          if rest.head? == some '\'' then
            (quotedRun single fuel (cursor.skip 2)).map fun run => ('\'' :: run.1, run.2)
          else some ([], false, cursor)
        else (quotedRun single fuel (cursor.skip 1)).map fun run => (c :: run.1, run.2)
      else if c == '"' then some ([], false, cursor)
      else if c == '\\' then
        if rest.head?.any isBreak then some ([], true, (cursor.skip 1).nextLine.2)
        else do
          let (escaped, count) ← readEscape rest
          let run ← quotedRun single fuel (cursor.skip (count + 1))
          return (escaped :: run.1, run.2)
      else (quotedRun single fuel (cursor.skip 1)).map fun run => (c :: run.1, run.2)

/-- The rest of a quoted scalar after its text so far; the quote closes it. -/
def quotedRest (single : Bool) : Nat → List Char → Cursor → Option (List Char × Cursor)
  | 0, _, _ => none
  | fuel + 1, text, cursor => do
    if cursor.atDocumentMark then none
    let (run, escaped, cursor) ← quotedRun single (cursor.rest.length + 1) cursor
    let text := text ++ run
    if !escaped && cursor.head? == some (if single then '\'' else '"') then return (text, cursor.skip 1)
    let (gap, cursor) ← takeGap 0 (cursor.rest.length + 1) { broken := escaped } cursor
    quotedRest single fuel (text ++ gap.folded) cursor

/-- What happens to the line ends at the end of a block scalar. -/
inductive Chomping where
  | strip
  | clip
  | keep
deriving DecidableEq, Repr

/-- The header of a block scalar: the chomping and the indentation it states, and the position at the end of its line. -/
def blockHeader (cursor : Cursor) : Option (Chomping × Option Nat × Cursor) := do
  let chomping (c : Char) : Option Chomping := if c == '+' then some .keep else if c == '-' then some .strip else none
  let digit (c : Char) : Option Nat := if isDigit c && c != '0' then some (digitValue c) else none
  let first := cursor.head?
  if first == some '0' then none
  let (style, indent, cursor) :=
    match first.bind chomping, first.bind digit with
    | some style, _ =>
      let next := cursor.skip 1
      match next.head?.bind digit with
      | some indent => (style, some indent, next.skip 1)
      | none => (style, none, next)
    | none, some indent =>
      let next := cursor.skip 1
      match next.head?.bind chomping with
      | some style => (style, some indent, next.skip 1)
      | none => (.clip, some indent, next)
    | none, none => (.clip, none, cursor)
  let cursor := cursor.skipWhile isSpace
  let cursor := if cursor.head? == some '#' then cursor.skipWhile (!isBreak ·) else cursor
  if cursor.sees 0 (!isBreak ·) then none
  return (style, indent, cursor.nextLine.2)

/-- The empty lines before a line of a block scalar. Without a stated indentation the greatest column reached is
returned too. -/
def blockBreaks (indent : Option Nat) : Nat → Nat → List Char → Cursor → Option (List Char × Nat × Cursor)
  | 0, _, _, _ => none
  | fuel + 1, greatest, breaks, cursor =>
    let within (cursor : Cursor) : Bool := indent.all fun limit => cursor.column < limit
    let width := (cursor.rest.takeWhile (· == ' ')).length
    let cursor := cursor.skip (match indent with
      | some limit => min width (limit - cursor.column)
      | none => width)
    let greatest := max greatest cursor.column
    if within cursor && cursor.head? == some '\t' then none
    else if cursor.sees 0 isBreak then
      let (ending, next) := cursor.nextLine
      blockBreaks indent fuel greatest (breaks ++ ending) next
    else some (breaks, greatest, cursor)

/-- The lines of a block scalar. The state holds the text so far, the last line end, the empty lines after it, and
whether the last line began with a blank. -/
def blockLines (literal : Bool) (indent : Nat) : Nat → List Char → List Char → List Char → Bool → Cursor →
    Option (List Char × List Char × List Char × Cursor)
  | 0, _, _, _, _, _ => none
  | fuel + 1, text, last, empty, wasBlank, cursor =>
    if cursor.column != indent || cursor.rest.isEmpty then some (text, last, empty, cursor)
    else do
      let isBlank := cursor.sees 0 isSpace
      let joint :=
        if !literal && last.head? == some '\n' && !wasBlank && !isBlank then (if empty.isEmpty then [' '] else [])
        else last
      let line := cursor.rest.takeWhile (!isBreak ·)
      let text := text ++ joint ++ empty ++ line
      let (ending, cursor) := (cursor.skip line.length).nextLine
      let (empty, _, cursor) ← blockBreaks (some indent) (cursor.rest.length + 1) 0 [] cursor
      blockLines literal indent fuel text ending empty isBlank cursor

/-- The block scalar at a position after its mark, inside a block of the given indentation. -/
def blockScalar (literal : Bool) (outer : Int) (cursor : Cursor) : Option (List Char × Cursor) := do
  let (chomping, stated, cursor) ← blockHeader cursor
  let stated := stated.map fun count => (max outer 0).toNat + count
  let size := cursor.rest.length + 1
  let (empty, greatest, cursor) ← blockBreaks stated size 0 [] cursor
  let indent := stated.getD (max (max greatest (outer + 1).toNat) 1)
  let (text, last, empty, cursor) ← blockLines literal indent size [] [] empty false cursor
  let ending := match chomping with
    | .strip => []
    | .clip => last
    | .keep => last ++ empty
  return (text ++ ending, cursor)

end Runbook.Yaml

import Runbook.Scenario.Error
import Runbook.Text.Blank
import Runbook.Text.Ascii
import Runbook.Text.Digit
import Runbook.Text.Pieces

/-!
Scripts: Markdown documents whose fenced request blocks follow step headings. This module finds the blocks; other
fences are prose, in which nothing counts.
-/

namespace Runbook.Script

open Runbook.Text

/-- A line of a document with its number, from 1. -/
structure Line where
  number : Nat
  text : String
deriving DecidableEq, Repr

/-- The lines of a document. -/
def linesOf (document : String) : List Line :=
  (lines document.toList).mapIdx fun index text => ⟨index + 1, String.ofList text⟩

/-- A request block: the number and title of its step, the line that opens it and the lines in it. -/
structure Block where
  number : Nat
  title : Option String
  line : Nat
  lines : List Line
deriving DecidableEq, Repr

/-- The name of the step of a block. -/
def Block.label (block : Block) : String :=
  let step := "Step " ++ toString block.number
  match block.title with
  | some title => if title.isEmpty then step else step ++ ": " ++ title
  | none => step

/-- The three backticks of a fence. -/
def fence : List Char := ['\x60', '\x60', '\x60']

/-- The info strings that make a fence a request block. -/
def requestTags : List String := ["kest", "http", "step"]

/-- The greatest step number. -/
def greatestNumber : Nat := Nat.pow 2 32 - 1

/-- The letters of a word in any case; the long s is a form of s. -/
def isWord (word text : List Char) : Bool :=
  text.map (fun c => if c == '\u017f' then 's' else lowerChar c) == word

/-- The number of a heading: one that is too great, or has digits other than those of ASCII, counts as zero. -/
def headingNumber (digits : List Char) : Nat :=
  if digits.all isDigit && decimalValue digits ≤ greatestNumber then decimalValue digits else 0

/-- The number and title of a trimmed line that is a step heading, such as `## Step 2: log in`. -/
def heading? (line : List Char) : Option (Nat × String) := do
  let rest ← afterFront? ['#', '#'] line
  let word := rest.dropWhile isBlank
  if word.length == rest.length || !isWord "step".toList (word.take 4) then none
  let rest := word.drop 4
  let number := rest.dropWhile isBlank
  let digits := number.takeWhile isAnyDigit
  if number.length == rest.length || digits.isEmpty then none
  let after := (number.drop digits.length).dropWhile isBlank
  let title := match after with
    | ':' :: title | '.' :: title | '-' :: title => title
    | _ => after
  if title.contains '\n' then none
  return (headingNumber digits, String.ofList (trim title))

/-- Where a scan stands: outside all fences, in prose, or in a request block. -/
inductive Place where
  | outside
  | prose
  | inside (block : Block)
deriving DecidableEq, Repr

/-- The state of a scan for request blocks. -/
structure Scan where
  place : Place := .outside
  /-- The last heading since the block before. -/
  heading : Option (Nat × String) := none
  /-- The highest number of a block. -/
  highest : Nat := 0
  /-- The finished blocks. -/
  blocks : List Block := []
deriving Repr

namespace Scan

/-- A line that opens a request block. Without a heading the block is numbered after the highest one. -/
def openBlock (scan : Scan) (line : Nat) : Scan :=
  let number := match scan.heading with
    | some (number, _) => number
    | none => min (scan.highest + 1) greatestNumber
  { scan with
    place := .inside ⟨number, scan.heading.map Prod.snd, line, []⟩
    heading := none
    highest := max scan.highest number }

/-- The scan after one more line. -/
def next (scan : Scan) (line : Line) : Scan :=
  let text := trim line.text.toList
  match scan.place with
  | .inside block =>
    if text = fence then { scan with place := .outside, blocks := scan.blocks ++ [block] }
    else { scan with place := .inside { block with lines := block.lines ++ [line] } }
  | .prose => if text = fence then { scan with place := .outside } else scan
  | .outside =>
    match heading? text with
    | some heading => { scan with heading := some heading }
    | none =>
      match afterFront? fence text with
      | some info =>
        if requestTags.contains (String.ofList ((trim info).map lowerChar)) then scan.openBlock line.number
        else { scan with place := .prose }
      | none => scan

end Scan

/-- The request blocks of a document, in order. A block that is not closed is an error; prose may run to the end. -/
def blocks (document : String) : Except ScenarioError (List Block) :=
  let scan := (linesOf document).foldl Scan.next {}
  match scan.place with
  | .inside block => .error (.atLine block.label block.line .unterminatedBlock)
  | _ => .ok scan.blocks

end Runbook.Script

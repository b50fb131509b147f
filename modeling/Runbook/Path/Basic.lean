import Runbook.Text.Ascii
import Runbook.Text.Blank
import Runbook.Text.Pieces

/-!
Paths into JSON documents: keys between dots, each with any number of subscripts in brackets, such as
`data.items[0].id`. The empty path leads to the whole document.
-/

namespace Runbook

open Runbook.Text

/-- One step of a path. -/
inductive Segment where
  | key (name : String)
  | index (position : Nat)
deriving DecidableEq, Repr

/-- A path that leads nowhere, and why. -/
structure PathError where
  path : String
  reason : String
deriving DecidableEq, Repr

/-- The wording of a path error. -/
def PathError.message (error : PathError) : String :=
  "path '" ++ error.path ++ "' cannot be resolved: " ++ error.reason

namespace Path

/-- Why a text is no path. -/
inductive Fault where
  | emptySegment
  | afterSubscript (rest : String)
  | unclosedBracket
  | badIndex (text : String)
deriving DecidableEq, Repr

/-- The wording of a fault. -/
def Fault.message : Fault → String
  | emptySegment => "empty path segment"
  | afterSubscript rest => "unexpected '" ++ rest ++ "' after subscript"
  | unclosedBracket => "unclosed '['"
  | badIndex text => "invalid array index '" ++ text ++ "'"

/-- The first number that is no position in a list. -/
def positionLimit : Nat := Nat.pow 2 64

/-- The subscripts that a text consists of. The fuel bounds their number. -/
def readSubscripts : Nat → List Char → Except Fault (List Segment)
  | 0, _ | _, [] => .ok []
  | fuel + 1, '[' :: rest =>
    match cut? ']' rest with
    | none => .error .unclosedBracket
    | some (inside, after) =>
      match naturalBelow? positionLimit (trim inside) with
      | none => .error (.badIndex (String.ofList inside))
      | some position => do
        let more ← readSubscripts fuel after
        return .index position :: more
  | _, text => .error (.afterSubscript (String.ofList text))

/-- The segments of one part between dots: a key, subscripts, or a key with subscripts. -/
def readPart (part : List Char) : Except Fault (List Segment) := do
  if part.isEmpty then throw .emptySegment
  let key := part.takeWhile (· != '[')
  let subscripts ← readSubscripts part.length (part.dropWhile (· != '['))
  return if key.isEmpty then subscripts else .key (String.ofList key) :: subscripts

/-- The segments of all parts, in order. -/
def readParts : List (List Char) → Except Fault (List Segment)
  | [] => .ok []
  | part :: rest => do
    let first ← readPart part
    let more ← readParts rest
    return first ++ more

/-- The segments of a path. Blanks around it do not count. -/
def read (path : String) : Except Fault (List Segment) :=
  let inner := trim path.toList
  if inner.isEmpty then .ok [] else readParts (splitAt '.' inner)

/-- The segments of a path, with an error that names it. -/
def parse (path : String) : Except PathError (List Segment) :=
  (read path).mapError fun fault => ⟨path, fault.message⟩

/-- The written form of a segment. -/
def segmentText (first : Bool) : Segment → String
  | .key name => if first then name else "." ++ name
  | .index position => "[" ++ toString position ++ "]"

/-- The written form of segments: keys joined by dots, positions in brackets. -/
def render : List Segment → String
  | [] => ""
  | first :: rest => segmentText true first ++ String.join (rest.map (segmentText false))

end Path
end Runbook

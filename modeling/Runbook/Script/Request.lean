import Runbook.Assertion.Reader
import Runbook.Scenario.Capture
import Runbook.Script.Block

/-!
The grammar inside a request block: a request line, headers, a body after a blank line, and the sections for captures,
assertions and options.
-/

namespace Runbook.Script

open Runbook.Text

/-- The part of a block that a line belongs to. -/
inductive Section where
  | headers
  | body
  | captures
  | asserts
  | options
deriving DecidableEq, Repr

/-- The section that a marker line opens. -/
def marker? (line : String) : Option Section :=
  match String.ofList ((trim line.toList).map lowerChar) with
  | "[captures]" => some .captures
  | "[asserts]" | "[assertions]" => some .asserts
  | "[options]" => some .options
  | _ => none

/-- A line of a section that says nothing: a blank one or a comment. -/
def isInert (line : String) : Bool :=
  match trim line.toList with
  | [] => true
  | c :: _ => c == '#'

/-- The name and value of a line `name: value`; the name is one word. -/
def pair? (line : List Char) : Option (String × String) :=
  match cut? ':' line with
  | some (name, value) =>
    let name := trim name
    if name.isEmpty || name.any isBlank then none else some (String.ofList name, String.ofList (trim value))
  | none => none

/-- The method and URL of a request line. After the URL only a protocol version may follow. -/
def readRequestLine (line : String) : Except Defect (Method × String) :=
  let method (word : List Char) : Except Defect Method :=
    match Method.read? (String.ofList word) with
    | some method => .ok method
    | none => .error (.invalidMethod (String.ofList word))
  match words line.toList with
  | [] => .error .missingRequestLine
  | [word] => do
    let _ ← method word
    throw .emptyUrl
  | word :: url :: rest => do
    let found ← method word
    match rest with
    | [] => return (found, String.ofList url)
    | version :: _ =>
      if (afterFront? "HTTP/".toList (version.map upperChar)).isSome then return (found, String.ofList url)
      else throw (.malformed ("unexpected text in request line '" ++ line ++ "'"))

/-- The capture of a line `name: path`. -/
def readCapture (line : String) : Except Defect Capture :=
  match pair? line.toList with
  | some (name, path) => do
    Capture.check name path
    return ⟨name, path⟩
  | none => .error (.invalidCapture line)

/-- A setting of a step in its options section. -/
inductive Setting where
  | id (text : String)
  | timeout (millis : Nat)
  | retry (count : Nat)
  | retryWait (millis : Nat)
deriving DecidableEq, Repr

/-- The greatest number of milliseconds of an option. -/
def greatestMillis : Nat := Nat.pow 2 64 - 1

/-- The setting of a line `key: value`. -/
def readSetting (line : String) : Except Defect Setting :=
  let setting : Option Setting := do
    let (key, value) ← pair? line.toList
    match lower key with
    | "id" => if value.isEmpty then none else some (.id value)
    | "timeout" => (Duration.millis? value.toList).map fun x => .timeout (x.floorWithin greatestMillis)
    | "retry" => (naturalBelow? (Nat.pow 2 32) value.toList).map .retry
    | "retry_wait" | "retry-wait" =>
      (Duration.millis? value.toList).map fun x => .retryWait (x.floorWithin greatestMillis)
    | _ => none
  match setting with
  | some setting => .ok setting
  | none => .error (.invalidOption line)

/-- What has been read of a block. -/
structure Draft where
  place : Section := .headers
  headers : Dict String := []
  bodyLines : List String := []
  captures : List Capture := []
  asserts : List Assertion := []
  options : StepOptions := {}
  id : Option String := none

namespace Draft

/-- The draft with a setting made. -/
def set (draft : Draft) : Setting → Draft
  | .id text => { draft with id := some text }
  | .timeout millis => { draft with options := { draft.options with timeout := some millis } }
  | .retry count => { draft with options := { draft.options with retry := count } }
  | .retryWait millis => { draft with options := { draft.options with retryWait := millis } }

/-- The draft after a line of its present section. -/
def addLine (draft : Draft) (line : String) : Except Defect Draft :=
  let text := trimmed line
  match draft.place with
  | .body => .ok { draft with bodyLines := draft.bodyLines ++ [line] }
  | .headers =>
    if text.isEmpty then .ok { draft with place := .body }
    else if isInert line then .ok draft
    else
      match pair? text.toList with
      | some (name, value) => .ok { draft with headers := draft.headers.insert name value }
      | none => .error (.invalidHeader text)
  | .captures =>
    if isInert line then .ok draft
    else do
      let capture ← readCapture text
      return { draft with captures := draft.captures ++ [capture] }
  | .asserts =>
    if isInert line then .ok draft
    else
      match Assertion.parse text with
      | .ok assertion => .ok { draft with asserts := draft.asserts ++ [assertion] }
      | .error fault => .error (.invalidAssertion (text ++ ": " ++ fault.message))
  | .options =>
    if isInert line then .ok draft
    else do
      let setting ← readSetting text
      return draft.set setting

/-- The draft after one more line; a marker opens another section. -/
def next (draft : Draft) (line : String) : Except Defect Draft :=
  match marker? line with
  | some place => .ok { draft with place }
  | none => draft.addLine line

/-- The body of a draft: its lines without blanks around them, if anything is left. -/
def body? (draft : Draft) : Option String :=
  let text := trimmed ("\n".intercalate draft.bodyLines)
  if text.isEmpty then none else some text

end Draft

/-- The step of a request block. -/
def Block.step (block : Block) : Except ScenarioError Step := do
  let fail (line : Nat) {α : Type} : Except Defect α → Except ScenarioError α :=
    Except.mapError (ScenarioError.atLine block.label line)
  match block.lines.find? (!isInert ·.text) with
  | none => throw (.atLine block.label block.line .missingRequestLine)
  | some request =>
    let (method, url) ← fail request.number (readRequestLine request.text)
    let rest := (block.lines.dropWhile (·.number != request.number)).drop 1
    let draft ← rest.foldlM (fun draft line => fail line.number (draft.next line.text)) ({} : Draft)
    return {
      id := draft.id.getD ("step-" ++ toString block.number)
      name := block.label
      method, url
      headers := draft.headers
      body := draft.body?
      captures := draft.captures
      asserts := draft.asserts
      sortOrder := block.number
      options := draft.options }

end Runbook.Script

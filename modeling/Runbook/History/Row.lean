import Runbook.History.Entry
import Runbook.Json.Printer

/-!
Rows of the history store. A row keeps an entry in columns of text and integers; what it holds may have been changed
from outside, so a row need not hold an entry.
-/

namespace Runbook.History

open Runbook.Text

/-- A value in a column. -/
inductive Cell where
  | null
  | int (value : Int)
  | text (content : String)
deriving DecidableEq, Repr

/-- The columns of a row beside its identifier. -/
inductive Column where
  | timestamp
  | project
  | method
  | url
  | requestHeaders
  | requestBody
  | responseStatus
  | responseHeaders
  | responseBody
  | millis
  | error
deriving DecidableEq, Repr

namespace Column

/-- Every column, in order. -/
def all : List Column :=
  [timestamp, project, method, url, requestHeaders, requestBody, responseStatus, responseHeaders, responseBody, millis,
    error]

/-- The name of a column. -/
def name : Column → String
  | timestamp => "timestamp"
  | project => "project"
  | method => "method"
  | url => "url"
  | requestHeaders => "request_headers"
  | requestBody => "request_body"
  | responseStatus => "response_status"
  | responseHeaders => "response_headers"
  | responseBody => "response_body"
  | millis => "duration_ms"
  | error => "error"

/-- The column of a name. -/
def ofName? (name : String) : Option Column := all.find? (·.name == name)

/-- A column of integers. -/
def isInteger (column : Column) : Bool := column == responseStatus || column == millis

/-- A column that is never null. -/
def isRequired (column : Column) : Bool :=
  [timestamp, method, url, requestHeaders, responseHeaders, millis].contains column

/-- The greatest integer of a column. -/
def greatest : Int := Nat.pow 2 63 - 1

/-- A character of a decimal numeral. -/
def isNumeralChar (c : Char) : Bool := isDigit c || ['+', '-', '.', 'e', 'E'].contains c

/-- A character that may stand around a numeral. -/
def isSpace (c : Char) : Bool := [' ', '\t', '\n', '\x0b', '\x0c', '\r'].contains c

/-- The integer that a text stands for in a column of integers: digits with a sign or not, or any other decimal numeral
whose value is an integer of that size. -/
def integerOf? (text : String) : Option Int :=
  let numeral := strip isSpace text.toList
  let (negative, digits) := match numeral with
    | '-' :: rest => (true, rest)
    | '+' :: rest => (false, rest)
    | _ => (false, numeral)
  if digits.isEmpty || !digits.all isNumeralChar then none
  else if digits.all isDigit then
    let size : Int := decimalValue digits
    let value := if negative then -size else size
    if -greatest - 1 ≤ value && value ≤ greatest then some value else none
  else ((Double.read? numeral).bind Double.integer?).filter fun n => n.natAbs ≤ greatest

/-- A value as a column keeps it; a required column does not keep null. -/
def kept (column : Column) : Cell → Option Cell
  | .null => if column.isRequired then none else some .null
  | .int value => some (if column.isInteger then .int value else .text (toString value))
  | .text content =>
    match column.isInteger, integerOf? content with
    | true, some value => some (.int value)
    | _, _ => some (.text content)

end Column

/-- A row of the store. -/
structure Row where
  id : Int
  cell : Column → Cell

/-- What is wrong with an entry that cannot be read. -/
inductive Damage where
  | timestamp
  | status (value : Int)
  | method (text : String)
deriving DecidableEq, Repr

/-- The wording of a damage. -/
def Damage.message : Damage → String
  | timestamp => "bad timestamp"
  | status value => "bad status " ++ toString value
  | method text => "bad method '" ++ text ++ "'"

/-- Why a row holds no entry. -/
inductive RowFault where
  /-- A column holds a value of another kind. -/
  | kind
  | damage (cause : Damage)
  /-- A column that should hold the headers does not. -/
  | headers
deriving DecidableEq, Repr

/-- A text that may be absent, as a value. -/
def Cell.ofText? : Option String → Cell
  | some content => text content
  | none => null

namespace Row

/-- The row of an entry under an identifier. -/
def ofEntry (id : Int) (entry : HistoryEntry) : Row where
  id := id
  cell
    | .timestamp => .text (entry.timestamp.withZone "+00:00")
    | .project => .ofText? entry.project
    | .method => .text entry.method
    | .url => .text entry.url
    | .requestHeaders => .text (Json.ofTexts entry.requestHeaders).compact
    | .requestBody => .ofText? entry.requestBody
    | .responseStatus => (entry.status.map fun status => Cell.int status).getD .null
    | .responseHeaders => .text (Json.ofTexts entry.responseHeaders).compact
    | .responseBody => .ofText? entry.responseBody
    | .millis => .int (min (entry.millis : Int) Column.greatest)
    | .error => .ofText? entry.error

/-- The text in a column. -/
def text (row : Row) (column : Column) : Except RowFault String :=
  match row.cell column with
  | .text content => .ok content
  | _ => .error .kind

/-- The text in a column that may be null. -/
def text? (row : Row) (column : Column) : Except RowFault (Option String) :=
  match row.cell column with
  | .text content => .ok (some content)
  | .null => .ok none
  | .int _ => .error .kind

/-- The integer in a column that may be null. -/
def int? (row : Row) (column : Column) : Except RowFault (Option Int) :=
  match row.cell column with
  | .int value => .ok (some value)
  | .null => .ok none
  | .text _ => .error .kind

/-- The integer in a column. -/
def int (row : Row) (column : Column) : Except RowFault Int := do
  match ← row.int? column with
  | some value => return value
  | none => throw .kind

/-- The check that every column holds a value of its kind. -/
def checkKinds (row : Row) : Except RowFault Unit :=
  Column.all.forM fun column => do
    if column.isInteger then
      if column.isRequired then discard (row.int column) else discard (row.int? column)
    else if column.isRequired then discard (row.text column)
    else discard (row.text? column)

/-- The headers that a text holds. -/
def headersOf (content : String) : Except RowFault (Dict String) :=
  match (Json.read? content).bind Document.texts? with
  | some headers => .ok headers
  | none => .error .headers

/-- The entry of a row whose columns hold values of their kinds. -/
def entry (row : Row) : Except RowFault HistoryEntry := do
  let some timestamp := Time.Instant.readStrict? (← row.text .timestamp).toList | throw (.damage .timestamp)
  let status ← match ← row.int? .responseStatus with
    | none => pure none
    | some value =>
      if 0 ≤ value && value < Document.wordBound 16 then pure (some value.toNat)
      else throw (.damage (.status value))
  return {
    id := row.id
    timestamp, status
    project := ← row.text? .project
    method := ← row.text .method
    url := ← row.text .url
    requestHeaders := ← headersOf (← row.text .requestHeaders)
    requestBody := ← row.text? .requestBody
    responseHeaders := ← headersOf (← row.text .responseHeaders)
    responseBody := ← row.text? .responseBody
    millis := (← row.int .millis).toNat
    error := ← row.text? .error }

/-- The row with another value in a column. -/
def set (row : Row) (column : Column) (value : Cell) : Row :=
  { row with cell := fun other => if other = column then value else row.cell other }

end Row
end Runbook.History

import Runbook.Failure
import Runbook.Files.Basic
import Runbook.History.Row
import Runbook.Text.Pieces

/-!
The history store. Rows are only added, each under an identifier that no row had before; what is there is never changed
or removed by the store itself.
-/

namespace Runbook.History

open Runbook.Text

/-- What is wrong with the file of a store. -/
inductive StoreFault where
  | cannotOpen (path : String)
  | notStore
  /-- A column holds a value of another kind. -/
  | wrongKind
  /-- No identifier is left. -/
  | full
deriving DecidableEq, Repr

namespace StoreFault

/-- What a fault is. -/
def reason : StoreFault → String
  | cannotOpen path => "unable to open database file: " ++ path
  | notStore => "file is not a database"
  | wrongKind => "Invalid column type"
  | full => "database or disk is full"

/-- The error code of a fault, where it has one. -/
def codeText? : StoreFault → Option String
  | cannotOpen _ => some "Error code 14: Unable to open the database file"
  | notStore => some "Error code 26: File opened that is not a database file"
  | wrongKind => none
  | full => some "Error code 13: Insertion failed because database is full"

/-- A fault as the cause of a failed task. -/
def cause (fault : StoreFault) : String := "Rusqlite(\"" ++ fault.reason ++ "\")"

end StoreFault

/-- Why the history cannot answer. -/
inductive StoreError where
  | notFound (id : Int)
  | corrupt (id : Int) (damage : Damage)
  | encoding
  /-- The store itself failed at a task. -/
  | database (task : String) (fault : StoreFault)
  /-- A file failed at a task. -/
  | files (task : String) (cause : FileError)
deriving DecidableEq, Repr

/-- The wording of a store error. -/
def StoreError.message : StoreError → String
  | notFound id => "history record " ++ toString id ++ " not found"
  | corrupt id damage => "history record is corrupt: record " ++ toString id ++ ": " ++ damage.message
  | encoding => "history record encoding error"
  | database task fault => "history database error (" ++ task ++ "): " ++ fault.cause
  | files task cause => "history log io error (" ++ task ++ "): " ++ cause.message

/-- A store error with its causes. -/
def StoreError.failure (error : StoreError) : Failure :=
  let causes := match error with
    | database _ fault => fault.cause :: fault.reason :: fault.codeText?.toList
    | files _ cause => [cause.message]
    | notFound _ | corrupt .. | encoding => []
  ⟨error.message, causes⟩

/-- The error of a row that holds no entry, found at a task. -/
def RowFault.error (task : String) (id : Int) : RowFault → StoreError
  | kind => .database task .wrongKind
  | damage cause => .corrupt id cause
  | headers => .encoding

/-- What a query asks for; a part that is not given does not matter. -/
structure Filter where
  limit : Nat := 20
  project : Option String := none
  method : Option String := none
  urlPart : Option String := none
deriving DecidableEq, Repr

/-- A row that a filter lets through. -/
def Filter.admits (filter : Filter) (row : Row) : Bool :=
  filter.project.all (fun project => row.cell .project == .text project) &&
    filter.method.all (fun method => row.cell .method == .text (upper method)) &&
    filter.urlPart.all fun part =>
      match row.cell .url with
      | .text url => holds part.toList url.toList
      | _ => false

/-- The rows in the order of their identifiers, and the last identifier given. -/
structure Store where
  rows : List Row := []
  lastId : Int := 0

namespace Store

/-- The last identifier is given. -/
def isFull (store : Store) : Bool := Column.greatest ≤ store.lastId

/-- The store with an entry added, and the identifier of the entry. -/
def record (entry : HistoryEntry) (store : Store) : Int × Store :=
  let id := store.lastId + 1
  (id, ⟨store.rows ++ [.ofEntry id entry], id⟩)

/-- The entry with an identifier. -/
def get (id : Int) (store : Store) : Except StoreError HistoryEntry :=
  match store.rows.find? (·.id == id) with
  | none => .error (.notFound id)
  | some row => do
    let task := "read history record"
    row.checkKinds.mapError (RowFault.error task id)
    row.entry.mapError (RowFault.error task id)

/-- The rows that a filter lets through, newest first and as many as it wants. -/
def select (filter : Filter) (store : Store) : List Row :=
  (store.rows.reverse.filter filter.admits).take filter.limit

/-- The entries that a filter lets through, newest first. One that cannot be read fails the query. -/
def query (filter : Filter) (store : Store) : Except StoreError (List HistoryEntry) := do
  let task := "query history"
  let rows := store.select filter
  rows.forM fun row => row.checkKinds.mapError (RowFault.error task row.id)
  rows.mapM fun row => row.entry.mapError (RowFault.error task row.id)

/-- A change of one column from outside: the number of rows changed and the store after it. A column that does not
admit the value leaves the store as it is. -/
def overwrite (id : Int) (column : Column) (value : Cell) (store : Store) : Option (Nat × Store) :=
  (column.kept value).map fun value =>
    ((store.rows.filter (·.id == id)).length,
      { store with rows := store.rows.map fun row => if row.id == id then row.set column value else row })

/-! The store as a text -/

/-- A value as JSON. -/
def cellJson : Cell → Json
  | .null => .null
  | .int value => .int value
  | .text content => .string content

/-- The value that JSON stands for. -/
def cellOf? : Json → Option Cell
  | .null => some .null
  | .int value => some (.int value)
  | .string content => some (.text content)
  | _ => none

/-- A row as JSON: its identifier, then its columns in order. -/
def rowJson (row : Row) : Json := .array (.int row.id :: Column.all.map fun column => cellJson (row.cell column))

/-- The row that JSON stands for. -/
def rowOf? : Json → Option Row
  | .array (.int id :: values) => do
    let cells ← values.mapM cellOf?
    if cells.length = Column.all.length then
      return ⟨id, fun column => ((Column.all.zip cells).lookup column).getD .null⟩
    else none
  | _ => none

/-- The text that keeps a store. -/
def text (store : Store) : String :=
  (Json.object [("last_id", .int store.lastId), ("rows", .array (store.rows.map rowJson))]).compact ++ "\n"

/-- The store that a text keeps; the empty text keeps the empty store. -/
def read? (text : String) : Option Store :=
  if text.isEmpty then some {}
  else do
    let value ← Json.parse? text
    match value.field? "last_id", value.field? "rows" with
    | some (.int lastId), some (.array rows) => return ⟨← rows.mapM rowOf?, lastId⟩
    | _, _ => none

end Store
end Runbook.History

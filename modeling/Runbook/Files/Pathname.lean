import Runbook.Text.Pieces

/-!
Pathnames: names between slashes. Repeated slashes and single dots inside a pathname name nothing; a slash or a dot at
the front does.
-/

namespace Runbook.Pathname

open Runbook.Text

/-- The front that is not a name, and the names with the slashes between them. -/
def front (path : List Char) : List Char × List Char :=
  match path with
  | '/' :: rest => (['/'], rest)
  | ['.'] => (['.'], [])
  | '.' :: '/' :: rest => (['.'], '/' :: rest)
  | _ => ([], path)

/-- What follows the last slash, and what stands before it. -/
def cutLast (names : List Char) : List Char × List Char :=
  match cut? '/' names.reverse with
  | some (last, before) => (last.reverse, before.reverse)
  | none => (names, [])

/-- A piece between slashes that names nothing. -/
def isIdle (piece : List Char) : Bool := piece.isEmpty || piece == ['.']

/-- The text without the pieces at its end that name nothing. The fuel bounds their number. -/
def dropIdle : Nat → List Char → List Char
  | 0, names => names
  | fuel + 1, names =>
    let (piece, before) := cutLast names
    if isIdle piece && !names.isEmpty then dropIdle fuel before else names

/-- The text without the pieces at its end that name nothing. -/
def trimmed (names : List Char) : List Char := dropIdle names.length names

/-- The last name, if there is one and it is not the parent. -/
def name? (path : String) : Option String :=
  let (last, _) := cutLast (trimmed (front path.toList).2)
  if last.isEmpty || last == ['.', '.'] then none else some (String.ofList last)

/-- The pathname without its last name. -/
def parent? (path : String) : Option String :=
  let (mark, names) := front path.toList
  let names := trimmed names
  if names.isEmpty then if mark == ['.'] then some "" else none
  else some (String.ofList (mark ++ trimmed (cutLast names).2))

/-- A pathname that starts at the root. -/
def isAbsolute (path : String) : Bool := path.toList.head? == some '/'

/-- A pathname below another one; an absolute pathname stands for itself. -/
def join (base path : String) : String :=
  if isAbsolute path || base.isEmpty then path
  else if base.toList.getLast? == some '/' then base ++ path
  else base ++ "/" ++ path

/-- The parents of a pathname, nearest first. The fuel bounds their number. -/
def parents : Nat → String → List String
  | 0, _ => []
  | fuel + 1, path =>
    match parent? path with
    | some parent => parent :: parents fuel parent
    | none => []

/-- A pathname and its parents, nearest first. -/
def ancestors (path : String) : List String := path :: parents path.length path

end Runbook.Pathname

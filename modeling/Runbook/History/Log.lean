import Runbook.History.Entry
import Runbook.Json.Printer
import Runbook.Url.Basic

/-!
Log files: one line for each entry, in a file named for the time, the method and the path of the request.
-/

namespace Runbook.History

open Runbook.Text

/-- The path of a URL; a text that is no URL is taken up to its question mark. -/
def pathOf (url : String) : String :=
  match Url.parse url with
  | .ok url => url.path
  | .error _ => String.ofList (url.toList.takeWhile (· != '?'))

/-- A character that a log name keeps. -/
def isNameChar (c : Char) : Bool := isLetter c || isDigit c || c == '-' || c == '.'

/-- A text with every run of other characters as one underscore. The flag tells whether an underscore stands before. -/
def underscored : Bool → List Char → List Char
  | _, [] => []
  | marked, c :: rest =>
    if isNameChar c then c :: underscored false rest
    else if marked then underscored true rest
    else '_' :: underscored true rest

/-- The greatest length of the path in a log name. -/
def pathLimit : Nat := 80

/-- The path of a URL as a part of a file name. -/
def pathSlug (url : String) : String :=
  let slug := (strip (· == '_') (underscored false (pathOf url).toList)).take pathLimit
  if slug.isEmpty then "root" else String.ofList slug

/-- The name of the log file of an entry. -/
def logName (entry : HistoryEntry) : String :=
  entry.timestamp.stamp ++ "_" ++ upper entry.method ++ "_" ++ pathSlug entry.url ++ ".log"

/-- The line of an entry in its log file. -/
def logLine (entry : HistoryEntry) : String := entry.toJson.compact ++ "\n"

end Runbook.History

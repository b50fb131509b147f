import Runbook.Document.Decode
import Runbook.Document.Encode

/-!
Several finished runs as one record, with the time that all of them took.
-/

namespace Runbook

/-- Several finished runs. -/
structure RunCollection where
  runs : List Run
  millis : Nat
  timestamp : String
deriving Repr

/-- Several finished runs as JSON. -/
def RunCollection.toJson (collection : RunCollection) : Json :=
  .object [("runs", .array (collection.runs.map Run.toJson)), ("total_duration_ms", .int collection.millis),
    ("timestamp", .string collection.timestamp)]

/-- Several finished runs out of a document. -/
def Document.runCollection? {ν : Type} [Readable ν] (node : ν) : Option RunCollection := do
  let record ← record? ["runs", "total_duration_ms", "timestamp"] node
  return {
    runs := ← record.need 0 (listOf? run?)
    millis := ← record.need 1 (natBelow? (wordBound 64))
    timestamp := ← record.need 2 Readable.text? }

end Runbook

import Runbook.Json.Basic

/-!
Documents that data can be read from, whatever their notation, and the reading of records: a record is a list of named
fields or, where the notation allows it, a list of values in declared order.
-/

namespace Runbook

/-- The parts of a record as written. -/
inductive Document.Parts (ν : Type) where
  | named (fields : List (String × ν))
  | listed (items : List ν)

/-- A node of a document, with the ways in which it can be read. -/
class Readable (ν : Type) where
  isNull : ν → Bool
  text? : ν → Option String
  bool? : ν → Option Bool
  nat? : ν → Option Nat
  int? : ν → Option Int
  double? : ν → Option Double
  list? : ν → Option (List ν)
  /-- The fields as written; a name may occur more than once. -/
  fields? : ν → Option (List (String × ν))
  /-- The parts of a node that can be a record. -/
  parts? : ν → Option (Document.Parts ν)
  /-- The node as a canonical JSON value. -/
  json? : ν → Option Json

/-- JSON documents as written. -/
instance : Readable Json where
  isNull
    | .null => true
    | _ => false
  text?
    | .string text => some text
    | _ => none
  bool?
    | .bool value => some value
    | _ => none
  nat?
    | .int value => if 0 ≤ value then some value.toNat else none
    | _ => none
  int?
    | .int value => some value
    | _ => none
  double? := Json.number?
  list?
    | .array items => some items
    | _ => none
  fields?
    | .object fields => some fields
    | _ => none
  parts?
    | .object fields => some (.named fields)
    | .array items => some (.listed items)
    | _ => none
  json? value := some value.canonical

namespace Document

variable {ν : Type} [Readable ν] {α : Type}

open Readable

/-- The parts of a record in declared order, where they are given. -/
structure Record (ν : Type) where
  slots : List (Option ν)
  /-- The parts are listed without names. -/
  isListed : Bool

/-- The value of the field with one of the given names. A field given twice has none. -/
def slot? (names : List String) (fields : List (String × ν)) : Option (Option ν) :=
  match fields.filter fun field => names.contains field.1 with
  | [] => some none
  | [field] => some (some field.2)
  | _ => none

/-- The record that parts make up, for fields with the given names each. Other named fields do not matter. -/
def Parts.record? (declared : List (List String)) : Parts ν → Option (Record ν)
  | .named fields => (declared.mapM (slot? · fields)).map fun slots => ⟨slots, false⟩
  | .listed items =>
    if items.length ≤ declared.length then
      some ⟨items.map some ++ List.replicate (declared.length - items.length) none, true⟩
    else none

/-- The record that a node is, for fields of single names. -/
def record? (declared : List String) (node : ν) : Option (Record ν) :=
  (parts? node).bind fun parts => parts.record? (declared.map fun name => [name])

namespace Record

/-- The part with an index. -/
def slot (record : Record ν) (index : Nat) : Option ν := (record.slots[index]?).join

/-- A part that has to be given. -/
def need (record : Record ν) (index : Nat) (read : ν → Option α) : Option α :=
  (record.slot index).bind read

/-- A part that may be null, and may be left out where parts have names. -/
def optional (record : Record ν) (index : Nat) (read : ν → Option α) : Option (Option α) :=
  match record.slot index with
  | some node => if isNull node then some none else (read node).map some
  | none => if record.isListed then none else some none

/-- A part that has a default where it is not given. -/
def orElse (record : Record ν) (index : Nat) (default : α) (read : ν → Option α) : Option α :=
  match record.slot index with
  | some node => read node
  | none => some default

/-- A part that may be null or left out. -/
def nullable (record : Record ν) (index : Nat) (read : ν → Option α) : Option (Option α) :=
  record.orElse index none fun node => if isNull node then some none else (read node).map some

end Record

/-- A natural number below a bound. -/
def natBelow? (bound : Nat) (node : ν) : Option Nat :=
  (nat? node).filter (· < bound)

/-- An integer of 64 bits with sign. -/
def int64? (node : ν) : Option Int :=
  (int? node).filter fun n => -(Nat.pow 2 63 : Int) ≤ n && n < Nat.pow 2 63

/-- A list whose items can all be read. -/
def listOf? (read : ν → Option α) (node : ν) : Option (List α) :=
  (list? node).bind fun items => items.mapM read

/-- A dictionary whose values can all be read; of several fields with one name the last counts. -/
def dictOf? (read : ν → Option α) (node : ν) : Option (Dict α) :=
  (fields? node).bind fun fields =>
    (fields.mapM fun field => (read field.2).map fun value => (field.1, value)).map Dict.ofPairs

/-- A name out of a fixed set: a text, or a record with that field alone and nothing in it. -/
def name? (node : ν) : Option String :=
  match text? node with
  | some text => some text
  | none =>
    match fields? node with
    | some [(name, value)] => if isNull value then some name else none
    | _ => none

/-- The name in the tag of a record, and its other parts. -/
def tagged? (tag : String) (node : ν) : Option (String × Parts ν) := do
  match ← parts? node with
  | .named fields =>
    let held ← (← slot? [tag] fields)
    return (← text? held, .named (fields.filter (·.1 != tag)))
  | .listed (held :: rest) => return (← text? held, .listed rest)
  | .listed [] => none

end Document
end Runbook

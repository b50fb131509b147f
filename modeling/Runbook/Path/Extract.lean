import Runbook.Json.Basic
import Runbook.Path.Basic

/-!
Following a path into a JSON document.
-/

namespace Runbook

open Runbook.Text

/-- The kind of a value, as a phrase. -/
def Json.kindName : Json → String
  | .null => "null"
  | .bool _ => "a boolean"
  | .int _ | .real _ => "a number"
  | .string _ => "a string"
  | .array _ => "an array"
  | .object _ => "an object"

namespace Path

/-- Why a path leads to no value. -/
inductive Obstacle where
  | malformed (fault : Fault)
  | missingKey (name : String)
  | keyOfArray (name : String)
  | keyOf (name kind : String)
  | indexOf (kind : String) (position : Nat)
  | outOfRange (position length : Nat)
deriving DecidableEq, Repr

/-- The wording of an obstacle. -/
def Obstacle.message : Obstacle → String
  | malformed fault => fault.message
  | missingKey name => "missing key '" ++ name ++ "'"
  | keyOfArray name => "cannot read key '" ++ name ++ "' of an array"
  | keyOf name kind => "cannot read key '" ++ name ++ "' of " ++ kind
  | indexOf kind position => "cannot index " ++ kind ++ " with [" ++ toString position ++ "]"
  | outOfRange position length =>
    "index " ++ toString position ++ " out of range (length " ++ toString length ++ ")"

/-- The item at a position of a list. -/
def item (items : List Json) (position : Nat) : Except Obstacle Json :=
  match items[position]? with
  | some value => .ok value
  | none => .error (.outOfRange position items.length)

/-- One step into a value. A key that is a number also picks from a list. -/
def step (value : Json) : Segment → Except Obstacle Json
  | .key name =>
    match value with
    | .object fields =>
      match Dict.find? name fields with
      | some held => .ok held
      | none => .error (.missingKey name)
    | .array items =>
      match naturalBelow? positionLimit name.toList with
      | some position => item items position
      | none => .error (.keyOfArray name)
    | other => .error (.keyOf name other.kindName)
  | .index position =>
    match value with
    | .array items => item items position
    | other => .error (.indexOf other.kindName position)

/-- The value that segments lead to. -/
def follow (value : Json) : List Segment → Except Obstacle Json
  | [] => .ok value
  | segment :: rest => do
    let inner ← step value segment
    follow inner rest

/-- The value that a path leads to. -/
def find (body : Json) (path : String) : Except Obstacle Json := do
  let segments ← (read path).mapError Obstacle.malformed
  follow body segments

/-- The value that a path leads to, with an error that names the path. -/
def extract (body : Json) (path : String) : Except PathError Json :=
  (find body path).mapError fun obstacle => ⟨path, obstacle.message⟩

end Path
end Runbook

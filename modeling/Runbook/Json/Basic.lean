import Runbook.Dict
import Runbook.Double.Basic

/-!
JSON values. An object keeps its fields as a list; reading a document sorts them by name and keeps the last of several
fields of one name, and such values are called canonical.
-/

namespace Runbook

/-- A JSON value. Integers and doubles are different kinds of number. -/
inductive Json where
  | null
  | bool (value : Bool)
  | int (value : Int)
  | real (value : Double)
  | string (text : String)
  | array (items : List Json)
  | object (fields : List (String × Json))
deriving Repr, Inhabited

namespace Json

/-- The least integer that a JSON number keeps exactly. -/
def leastInt : Int := -(Nat.pow 2 63 : Int)

/-- The greatest integer that a JSON number keeps exactly. -/
def greatestInt : Int := Nat.pow 2 64 - 1

mutual
/-- Two values are the same when they have the same shape and the same leaves; an integer is never a double. -/
def same : Json → Json → Bool
  | null, null => true
  | bool a, bool b => a == b
  | int a, int b => a == b
  | real a, real b => Double.same a b
  | string a, string b => a == b
  | array a, array b => sameItems a b
  | object a, object b => sameFields a b
  | _, _ => false

/-- Two lists of items are the same item by item. -/
def sameItems : List Json → List Json → Bool
  | [], [] => true
  | a :: as, b :: bs => same a b && sameItems as bs
  | _, _ => false

/-- Two lists of fields are the same field by field. -/
def sameFields : List (String × Json) → List (String × Json) → Bool
  | [], [] => true
  | (k, a) :: as, (l, b) :: bs => k == l && same a b && sameFields as bs
  | _, _ => false
end

/-- The number that a value is, as a double. -/
def number? : Json → Option Double
  | int n => some (Double.ofInt n)
  | real x => some x
  | _ => none

/-- The double as a JSON value: a double that is no real number has none. -/
def ofDouble (x : Double) : Json := if x.isFinite then real x else null

/-- A value for a text that may be absent. -/
def ofText? : Option String → Json
  | some text => string text
  | none => null

/-- A value for a number that may be absent. -/
def ofNat? : Option Nat → Json
  | some n => int n
  | none => null

/-- The value of a field of an object. -/
def field? (name : String) : Json → Option Json
  | object fields => fields.lookup name
  | _ => none

mutual
/-- The canonical form of a value: fields sorted by name, the last of several fields of one name kept. -/
def canonical : Json → Json
  | array items => array (canonicalItems items)
  | object fields => object (canonicalFields fields [])
  | other => other

/-- The canonical forms of a list of items. -/
def canonicalItems : List Json → List Json
  | [] => []
  | item :: rest => canonical item :: canonicalItems rest

/-- The fields written so far, with the canonical forms of more fields put into them. -/
def canonicalFields : List (String × Json) → Dict Json → Dict Json
  | [], written => written
  | (name, value) :: rest, written => canonicalFields rest (written.insert name (canonical value))
end

mutual
/-- A value as reading a document gives it: integers in range, doubles real and normal, fields sorted. -/
def Canonical : Json → Prop
  | int n => leastInt ≤ n ∧ n ≤ greatestInt
  | real x => x.isFinite = true ∧ x.IsNormal
  | array items => CanonicalItems items
  | object fields => Dict.Sorted fields ∧ CanonicalFields fields
  | _ => True

/-- Every item of a list is canonical. -/
def CanonicalItems : List Json → Prop
  | [] => True
  | item :: rest => Canonical item ∧ CanonicalItems rest

/-- Every field value of a list is canonical. -/
def CanonicalFields : List (String × Json) → Prop
  | [] => True
  | (_, value) :: rest => Canonical value ∧ CanonicalFields rest
end

end Json
end Runbook

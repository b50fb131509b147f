import Runbook.Document.Readable
import Runbook.Yaml.Node

/-!
Reading data from YAML documents. The kind of a plain scalar follows from its text; where a text is wanted, any scalar
is one. A record is always a mapping.
-/

namespace Runbook.Yaml

open Runbook.Text

/-- The texts that stand for nothing. -/
def isNullText (text : String) : Bool := ["~", "null", "Null", "NULL"].contains text

/-- The truth value that a text stands for. -/
def boolOf? (text : String) : Option Bool :=
  if ["true", "True", "TRUE"].contains text then some true
  else if ["false", "False", "FALSE"].contains text then some false
  else none

/-- Digits after a leading zero, which make no number. -/
def hasLeadingZero (text : List Char) : Bool :=
  let digits := match text with
    | '-' :: rest | '+' :: rest => rest
    | _ => text
  1 < digits.length && digits.head? == some '0' && digits.all isDigit

/-- The natural number that digits of a base write. -/
def digitsOf? (base : Nat) (text : List Char) : Option Nat :=
  if !text.isEmpty && text.all fun c => isHexDigit c && hexValue c < base then
    some (text.foldl (fun value c => value * base + hexValue c) 0)
  else none

/-- The natural number of a text without sign: decimal, or in another base after its mark. -/
def unsigned? (text : List Char) : Option Nat :=
  match text with
  | '0' :: 'x' :: digits => digitsOf? 16 digits
  | '0' :: 'o' :: digits => digitsOf? 8 digits
  | '0' :: 'b' :: digits => digitsOf? 2 digits
  | digits => if hasLeadingZero digits then none else digitsOf? 10 digits

/-- The natural number that a text writes. Nothing with a minus is one, not even zero. -/
def natOf? (text : String) : Option Nat :=
  match text.toList with
  | '+' :: rest => unsigned? rest
  | rest => unsigned? rest

/-- The integer that a text writes. -/
def intOf? (text : String) : Option Int :=
  match text.toList with
  | '-' :: rest => (unsigned? rest).map fun n => -(n : Int)
  | _ => (natOf? text).map Int.ofNat

/-- The double that a text writes: a decimal, an infinity or no number. -/
def doubleOf? (text : String) : Option Double :=
  let chars := text.toList
  let unsigned := match chars with
    | '+' :: rest => if rest.head? == some '+' || rest.head? == some '-' then none else some rest
    | rest => some rest
  unsigned.bind fun rest =>
    let word := String.ofList rest
    if [".inf", ".Inf", ".INF"].contains word then some (.infinite false)
    else if ["-.inf", "-.Inf", "-.INF"].contains text then some (.infinite true)
    else if [".nan", ".NaN", ".NAN"].contains text then some (.notANumber false)
    else (Double.read? rest).filter Double.isFinite

/-- The value of a plain scalar without a tag. An integer too great for 64 bits has none. -/
def plainValue? (text : String) : Option Json :=
  if text.isEmpty || isNullText text then some .null
  else
    match boolOf? text, intOf? text with
    | some value, _ => some (.bool value)
    | none, some n =>
      if Json.leastInt ≤ n && n ≤ Json.greatestInt then some (.int n)
      else if -(Nat.pow 2 127 : Int) ≤ n && n < Nat.pow 2 128 then none
      else some (farValue text)
    | none, none => some (farValue text)
where
  /-- The value of a text that is no integer: a double, or the text itself. -/
  farValue (text : String) : Json :=
    if hasLeadingZero text.toList then .string text
    else
      match doubleOf? text with
      | some x => Json.ofDouble x
      | none => .string text

/-- The value of a scalar with a tag. -/
def taggedValue? (tag : String) (text : String) : Option Json :=
  match tag with
  | "tag:yaml.org,2002:bool" => (boolOf? text).map Json.bool
  | "tag:yaml.org,2002:int" =>
    (intOf? text).bind fun n => if Json.leastInt ≤ n && n ≤ Json.greatestInt then some (.int n) else none
  | "tag:yaml.org,2002:float" => (doubleOf? text).map Json.ofDouble
  | "tag:yaml.org,2002:null" => if isNullText text then some .null else none
  | "!" => plainValue? text
  | _ => if tag.toList.head? == some '!' && 1 < tag.length then none else some (.string text)

/-- A tag of no kind that data can have. -/
def isForeign (tag : Option String) : Bool :=
  tag.any fun tag => tag.toList.head? == some '!' && 1 < tag.length

namespace Node

/-- The text of a scalar. -/
def text? : Node → Option String
  | .scalar _ _ text => some text
  | _ => none

/-- The text of a plain scalar. -/
def plainText? : Node → Option String
  | .scalar true _ text => some text
  | _ => none

/-- A scalar that is written as nothing at all. -/
def isMissing : Node → Bool
  | .scalar true _ text => text.isEmpty
  | _ => false

mutual
/-- The value of a node as JSON. -/
def json? : Node → Option Json
  | .scalar true none text => plainValue? text
  | .scalar false none text => some (.string text)
  | .scalar _ (some tag) text => taggedValue? tag text
  | .sequence tag items => if isForeign tag then none else (jsonItems? items).map Json.array
  | .mapping tag pairs => if isForeign tag then none else (jsonPairs? pairs []).map Json.object

/-- The values of items. -/
def jsonItems? : List Node → Option (List Json)
  | [] => some []
  | item :: rest => do
    let value ← json? item
    let more ← jsonItems? rest
    return value :: more

/-- The fields so far with those of more pairs. -/
def jsonPairs? : List (Node × Node) → Dict Json → Option (Dict Json)
  | [], fields => some fields
  | (key, value) :: rest, fields => do
    let name ← key.text?
    let value ← json? value
    jsonPairs? rest (fields.insert name value)
end

/-- The pairs of a mapping whose keys are texts. -/
def fields? : Node → Option (List (String × Node))
  | .mapping _ pairs => pairs.mapM fun pair => pair.1.text?.map fun name => (name, pair.2)
  | node => if node.isMissing then some [] else none

/-- The items of a sequence. -/
def list? : Node → Option (List Node)
  | .sequence _ items => some items
  | node => if node.isMissing then some [] else none

/-- A node that stands for nothing; with a tag it has to be the tag of nothing. -/
def isNull : Node → Bool
  | .scalar true none text => text.isEmpty || isNullText text
  | .scalar true (some tag) text => tag == "tag:yaml.org,2002:null" && isNullText text
  | _ => false

end Node

instance : Readable Node where
  isNull := Node.isNull
  text? := Node.text?
  bool? node := node.plainText?.bind boolOf?
  nat? node := node.plainText?.bind natOf?
  int? node := node.plainText?.bind intOf?
  double? node := node.plainText?.bind doubleOf?
  list? := Node.list?
  fields? := Node.fields?
  parts? node := node.fields?.map .named
  json? := Node.json?

end Runbook.Yaml

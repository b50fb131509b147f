import Runbook.Double.Decimal
import Runbook.Yaml.Scan

/-!
YAML documents as trees, read from their tokens. An alias stands for a copy of the node with its anchor.
-/

namespace Runbook.Yaml

/-- A node of a document. -/
inductive Node where
  | scalar (plain : Bool) (tag : Option String) (text : String)
  | sequence (tag : Option String) (items : List Node)
  | mapping (tag : Option String) (pairs : List (Node × Node))
deriving Repr, Inhabited

/-- The node that stands where nothing is written. -/
def Node.missing : Node := .scalar true none ""

/-- The nodes that have an anchor so far. -/
abbrev Anchors := List (String × Node)

/-- What is left after reading: the tokens that follow, and the anchors. -/
abbrev Rest := List Token × Anchors

/-- The anchor and the tag before a node, in either order. -/
def takeProperties (tokens : List Token) : Option String × Option String × List Token :=
  match tokens with
  | .anchor name :: .tag text :: rest => (some name, some text, rest)
  | .tag text :: .anchor name :: rest => (some name, some text, rest)
  | .anchor name :: rest => (some name, none, rest)
  | .tag text :: rest => (none, some text, rest)
  | rest => (none, none, rest)

/-- The anchors with a node added, if it has one. -/
def remember (name : Option String) (node : Node) (anchors : Anchors) : Anchors :=
  match name with
  | some name => (name, node) :: anchors
  | none => anchors

/-- Where a node stands: on a block level, there after a key (where a sequence needs no indentation), or in a flow
collection. -/
inductive Context where
  | block
  | blockAfterKey
  | flow
deriving DecidableEq, Repr

mutual
/-- The node at the front of the tokens. The fuel bounds the tokens read. -/
def readNode : Nat → Context → List Token → Anchors → Option (Node × Rest)
  | 0, _, _, _ => none
  | fuel + 1, context, tokens, anchors =>
    match tokens with
    | .alias name :: rest => (anchors.lookup name).map fun node => (node, rest, anchors)
    | _ =>
      let (anchor, tag, tokens) := takeProperties tokens
      let finish (read : Option (Node × Rest)) : Option (Node × Rest) :=
        read.map fun (node, rest, anchors) => (node, rest, remember anchor node anchors)
      match tokens, context with
      | .scalar plain text :: rest, _ =>
        -- the bare mark in front of a scalar is no tag
        finish (some (.scalar plain (tag.filter (· != "!")) text, rest, anchors))
      | .flowSequenceStart :: rest, _ =>
        finish ((readFlowItems fuel true rest anchors).map fun read => (.sequence tag read.1, read.2))
      | .flowMappingStart :: rest, _ =>
        finish ((readFlowPairs fuel true rest anchors).map fun read => (.mapping tag read.1, read.2))
      | .blockEntry :: _, .blockAfterKey =>
        finish ((readLooseItems fuel tokens anchors).map fun read => (.sequence tag read.1, read.2))
      | .blockSequenceStart :: rest, .block | .blockSequenceStart :: rest, .blockAfterKey =>
        finish ((readBlockItems fuel rest anchors).map fun read => (.sequence tag read.1, read.2))
      | .blockMappingStart :: rest, .block | .blockMappingStart :: rest, .blockAfterKey =>
        finish ((readBlockPairs fuel rest anchors).map fun read => (.mapping tag read.1, read.2))
      | rest, _ =>
        if anchor.isSome || tag.isSome then finish (some (.scalar true tag "", rest, anchors)) else none

/-- The node at the front of the tokens, unless one of the given tokens shows that nothing is written. -/
def readNodeUnless : Nat → Context → List Token → List Token → Anchors → Option (Node × Rest)
  | 0, _, _, _, _ => none
  | fuel + 1, context, ends, tokens, anchors =>
    match tokens with
    | token :: _ => if ends.contains token then some (.missing, tokens, anchors) else readNode fuel context tokens anchors
    | [] => none

/-- The items of a block sequence up to its end. -/
def readBlockItems : Nat → List Token → Anchors → Option (List Node × Rest)
  | 0, _, _ => none
  | fuel + 1, .blockEntry :: rest, anchors => do
    let (item, rest, anchors) ← readNodeUnless fuel .block [.blockEntry, .blockEnd] rest anchors
    let (items, rest, anchors) ← readBlockItems fuel rest anchors
    return (item :: items, rest, anchors)
  | _, .blockEnd :: rest, anchors => some ([], rest, anchors)
  | _, _, _ => none

/-- The items of a sequence without indentation of its own. -/
def readLooseItems : Nat → List Token → Anchors → Option (List Node × Rest)
  | 0, _, _ => none
  | fuel + 1, .blockEntry :: rest, anchors => do
    let (item, rest, anchors) ← readNodeUnless fuel .block [.blockEntry, .key, .value, .blockEnd] rest anchors
    let (items, rest, anchors) ← readLooseItems fuel rest anchors
    return (item :: items, rest, anchors)
  | _, tokens, anchors => some ([], tokens, anchors)

/-- The pairs of a block mapping up to its end. -/
def readBlockPairs : Nat → List Token → Anchors → Option (List (Node × Node) × Rest)
  | 0, _, _ => none
  | fuel + 1, .key :: rest, anchors => do
    let ends := [Token.key, .value, .blockEnd]
    let (key, rest, anchors) ← readNodeUnless fuel .blockAfterKey ends rest anchors
    let (value, rest, anchors) ← match rest with
      | .value :: rest => readNodeUnless fuel .blockAfterKey ends rest anchors
      | _ => some (.missing, rest, anchors)
    let (pairs, rest, anchors) ← readBlockPairs fuel rest anchors
    return ((key, value) :: pairs, rest, anchors)
  | _, .blockEnd :: rest, anchors => some ([], rest, anchors)
  | _, _, _ => none

/-- The items of a flow sequence up to its end; a key among them makes a mapping of one pair. -/
def readFlowItems : Nat → Bool → List Token → Anchors → Option (List Node × Rest)
  | 0, _, _, _ => none
  | _, _, .flowSequenceEnd :: rest, anchors => some ([], rest, anchors)
  | fuel + 1, first, tokens, anchors => do
    let tokens ← match first, tokens with
      | true, _ => some tokens
      | false, .flowEntry :: rest => some rest
      | false, _ => none
    match tokens with
    | .flowSequenceEnd :: rest => return ([], rest, anchors)
    | .key :: rest =>
      let (key, rest, anchors) ← readNodeUnless fuel .flow [.value, .flowEntry, .flowSequenceEnd] rest anchors
      let (value, rest, anchors) ← match rest with
        | .value :: rest => readNodeUnless fuel .flow [.flowEntry, .flowSequenceEnd] rest anchors
        | _ => some (.missing, rest, anchors)
      let (items, rest, anchors) ← readFlowItems fuel false rest anchors
      return (.mapping none [(key, value)] :: items, rest, anchors)
    | _ =>
      let (item, rest, anchors) ← readNode fuel .flow tokens anchors
      let (items, rest, anchors) ← readFlowItems fuel false rest anchors
      return (item :: items, rest, anchors)

/-- The pairs of a flow mapping up to its end; a key alone has no value. -/
def readFlowPairs : Nat → Bool → List Token → Anchors → Option (List (Node × Node) × Rest)
  | 0, _, _, _ => none
  | _, _, .flowMappingEnd :: rest, anchors => some ([], rest, anchors)
  | fuel + 1, first, tokens, anchors => do
    let tokens ← match first, tokens with
      | true, _ => some tokens
      | false, .flowEntry :: rest => some rest
      | false, _ => none
    match tokens with
    | .flowMappingEnd :: rest => return ([], rest, anchors)
    | .key :: rest =>
      let (key, rest, anchors) ← readNodeUnless fuel .flow [.value, .flowEntry, .flowMappingEnd] rest anchors
      let (value, rest, anchors) ← match rest with
        | .value :: rest => readNodeUnless fuel .flow [.flowEntry, .flowMappingEnd] rest anchors
        | _ => some (.missing, rest, anchors)
      let (pairs, rest, anchors) ← readFlowPairs fuel false rest anchors
      return ((key, value) :: pairs, rest, anchors)
    | _ =>
      let (key, rest, anchors) ← readNode fuel .flow tokens anchors
      let (pairs, rest, anchors) ← readFlowPairs fuel false rest anchors
      return ((key, .missing) :: pairs, rest, anchors)
end

/-- The only document of the tokens. A text without content is a missing node; a second document is an error. -/
def document? (tokens : List Token) : Option Node := do
  let isMark (token : Token) : Bool := [.directive, .documentStart, .documentEnd].contains token
  let (directives, rest) := (tokens.takeWhile (· == .directive), tokens.dropWhile (· == .directive))
  let (explicit, rest) := match rest with
    | .documentStart :: rest => (true, rest)
    | rest => (false, rest)
  if !directives.isEmpty && !explicit then none
  let fuel := 3 * tokens.length + 8
  let (node, rest) ← match rest with
    | [] => some (.missing, [])
    | token :: _ =>
      if explicit && isMark token then some (.missing, rest)
      else (readNode fuel .block rest []).map fun read => (read.1, read.2.1)
  if (rest.dropWhile (· == .documentEnd)).isEmpty then return node else none

/-- The document that a text is. -/
def read? (text : String) : Option Node := (tokens? text).bind document?

end Runbook.Yaml

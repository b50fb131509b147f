import Runbook.Text.Ascii

/-!
UTF-8: the octets of a text, the text of octets with every malformed part replaced, and percent-encoded octets.
-/

namespace Runbook.Text

/-- The octets of a character. -/
def octetsOf (c : Char) : List Nat :=
  let n := c.toNat
  if n < 0x80 then [n]
  else if n < 0x800 then [0xc0 + n / 0x40, 0x80 + n % 0x40]
  else if n < 0x10000 then [0xe0 + n / 0x1000, 0x80 + n / 0x40 % 0x40, 0x80 + n % 0x40]
  else [0xf0 + n / 0x40000, 0x80 + n / 0x1000 % 0x40, 0x80 + n / 0x40 % 0x40, 0x80 + n % 0x40]

/-- The octets of a text. -/
def octets (text : List Char) : List Nat := text.flatMap octetsOf

/-- The character that stands for a malformed part. -/
def replacement : Char := '\ufffd'

/-- The least and greatest second octet after a first one, and the number of octets after the first. A first octet
that starts no character has none. -/
def leadRange? (lead : Nat) : Option (Nat × Nat × Nat) :=
  if 0xc2 ≤ lead && lead ≤ 0xdf then some (0x80, 0xbf, 1)
  else if lead == 0xe0 then some (0xa0, 0xbf, 2)
  else if lead == 0xed then some (0x80, 0x9f, 2)
  else if 0xe1 ≤ lead && lead ≤ 0xef then some (0x80, 0xbf, 2)
  else if lead == 0xf0 then some (0x90, 0xbf, 3)
  else if 0xf1 ≤ lead && lead ≤ 0xf3 then some (0x80, 0xbf, 3)
  else if lead == 0xf4 then some (0x80, 0x8f, 3)
  else none

/-- A character in the course of being read: the value so far, the octets still owed and the range of the next. -/
structure Pending where
  value : Nat
  owed : Nat
  low : Nat
  high : Nat

/-- The reading of an octet that starts a character. -/
def startOctet (octet : Nat) : List Char × Option Pending :=
  if octet < 0x80 then ([Char.ofNat octet], none)
  else
    match leadRange? octet with
    | some (low, high, owed) =>
      let mask := if owed == 1 then 0x20 else if owed == 2 then 0x10 else 0x08
      ([], some ⟨octet % mask, owed, low, high⟩)
    | none => ([replacement], none)

/-- The text of octets; each maximal malformed part becomes one replacement character. -/
def decodeLossy (octets : List Nat) : List Char :=
  go none octets
where
  /-- The text of the octets after a pending character. -/
  go : Option Pending → List Nat → List Char
    | none, [] => []
    | some _, [] => [replacement]
    | none, octet :: rest => let step := startOctet octet; step.1 ++ go step.2 rest
    | some pending, octet :: rest =>
      if pending.low ≤ octet && octet ≤ pending.high then
        let value := pending.value * 0x40 + octet % 0x40
        if pending.owed == 1 then Char.ofNat value :: go none rest
        else go (some ⟨value, pending.owed - 1, 0x80, 0xbf⟩) rest
      else
        let step := startOctet octet
        replacement :: (step.1 ++ go step.2 rest)

/-- The octets of a text in which `%xx` stands for the octet of that number. -/
def percentDecode : List Char → List Nat
  | '%' :: a :: b :: rest =>
    if isHexDigit a && isHexDigit b then (hexValue a * 16 + hexValue b) :: percentDecode rest
    else octetsOf '%' ++ percentDecode (a :: b :: rest)
  | c :: rest => octetsOf c ++ percentDecode rest
  | [] => []

/-- An upper-case hexadecimal digit. -/
def hexUpper (n : Nat) : Char := upperChar ((Nat.toDigits 16 n).headD '0')

/-- An octet as `%XX`. -/
def percentOctet (octet : Nat) : List Char := ['%', hexUpper (octet / 16), hexUpper (octet % 16)]

/-- A text in which the characters of a set, controls and everything outside ASCII are percent-encoded. -/
def percentEncode (set : List Char) (text : List Char) : List Char :=
  text.flatMap fun c =>
    if c.toNat < 0x20 || 0x7f ≤ c.toNat || set.contains c then (octetsOf c).flatMap percentOctet else [c]

end Runbook.Text

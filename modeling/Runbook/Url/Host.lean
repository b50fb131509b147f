import Runbook.Text.Pieces
import Runbook.Text.Utf8
import Runbook.Url.Punycode

/-!
Hosts of URLs: domains, IPv4 addresses in all their spellings, and IPv6 addresses in brackets.
-/

namespace Runbook.Url

open Runbook.Text

/-- Why a text is no URL. -/
inductive Error where
  | emptyHost
  | invalidDomain
  | invalidPort
  | invalidIpv4
  | invalidIpv6
  | invalidDomainCharacter
  | relative
deriving DecidableEq, Repr

/-- The wording of an error. -/
def Error.message : Error → String
  | emptyHost => "empty host"
  | invalidDomain => "invalid international domain name"
  | invalidPort => "invalid port number"
  | invalidIpv4 => "invalid IPv4 address"
  | invalidIpv6 => "invalid IPv6 address"
  | invalidDomainCharacter => "invalid domain character"
  | relative => "relative URL without a base"

/-- A character that no domain may hold. -/
def isForbiddenInDomain (c : Char) : Bool :=
  c.toNat ≤ 0x20 || c.toNat == 0x7f || c == replacement ||
    ['%', '#', '/', ':', '<', '>', '?', '@', '[', '\\', ']', '^', '|'].contains c

/-- A character that no host of any kind may hold. -/
def isForbiddenInHost (c : Char) : Bool :=
  ['\x00', '\t', '\n', '\r', ' ', '#', '/', ':', '<', '>', '?', '@', '[', '\\', ']', '^', '|'].contains c

/-- An octal digit. -/
def isOctalDigit (c : Char) : Bool := '0' ≤ c && c ≤ '7'

/-- A part of an IPv4 address: decimal, octal after `0`, hexadecimal after `0x`. -/
def ipv4Number? (part : List Char) : Option Nat :=
  match part with
  | [] => none
  | '0' :: 'x' :: digits | '0' :: 'X' :: digits =>
    if digits.all isHexDigit then some (digits.foldl (fun value c => value * 16 + hexValue c) 0) else none
  | '0' :: c :: more =>
    let digits := c :: more
    if digits.all isOctalDigit then some (digits.foldl (fun value c => value * 8 + digitValue c) 0) else none
  | digits => if digits.all isDigit then some (decimalValue digits) else none

/-- The parts of a domain between dots, without an empty one at its end. -/
def domainParts (domain : List Char) : List (List Char) :=
  let parts := splitAt '.' domain
  match parts.getLast? with
  | some [] => if 1 < parts.length then parts.dropLast else parts
  | _ => parts

/-- A domain whose last part is a number has to be an IPv4 address. -/
def endsInNumber (domain : List Char) : Bool :=
  match (domainParts domain).getLast? with
  | some last => !last.isEmpty && (last.all isDigit || (ipv4Number? last).isSome)
  | none => false

/-- A domain is an IPv4 address: up to four numbers, of which the last fills the octets that the others leave. -/
def isIpv4 (domain : List Char) : Bool :=
  let parts := domainParts domain
  match parts.mapM ipv4Number?, parts.length with
  | some numbers, count =>
    count ≤ 4 && numbers.dropLast.all (· ≤ 255) && numbers.getLastD 0 < Nat.pow 256 (5 - count)
  | none, _ => false

/-- A dotted IPv4 address as the end of an IPv6 one. -/
def isDottedQuad (text : List Char) : Bool :=
  let parts := splitAt '.' text
  parts.length == 4 && parts.all fun part =>
    !part.isEmpty && part.all isDigit && decimalValue part ≤ 255 && (part.length == 1 || part.head? != some '0')

/-- The number of 16-bit pieces that texts between single colons write; none if one of them is no piece. Only the last
may be a dotted quad, which writes two. -/
def ipv6Pieces? : List (List Char) → Option Nat
  | [] => some 0
  | [last] =>
    if last.contains '.' then (if isDottedQuad last then some 2 else none)
    else if !last.isEmpty && last.length ≤ 4 && last.all isHexDigit then some 1 else none
  | part :: rest =>
    if !part.isEmpty && part.length ≤ 4 && part.all isHexDigit then (ipv6Pieces? rest).map (· + 1) else none

/-- The first place where two colons stand together: the text before and the text after them. -/
def cutDoubleColon? : List Char → Option (List Char × List Char)
  | ':' :: ':' :: rest => some ([], rest)
  | c :: rest => (cutDoubleColon? rest).map fun cut => (c :: cut.1, cut.2)
  | [] => none

/-- A text is an IPv6 address: eight pieces, or fewer around one double colon. -/
def isIpv6 (text : List Char) : Bool :=
  let pieces (part : List Char) := if part.isEmpty then some 0 else ipv6Pieces? (splitAt ':' part)
  match cutDoubleColon? text with
  | none => ipv6Pieces? (splitAt ':' text) == some 8
  | some (front, back) =>
    match if front.contains '.' then none else pieces front, pieces back with
    | some before, some after => before + after ≤ 7
    | _, _ => false

/-- The check of a host in brackets. -/
def checkBracketed (host : List Char) : Except Error Unit :=
  match host.getLast? with
  | some ']' => if isIpv6 (host.dropLast.drop 1) then .ok () else .error .invalidIpv6
  | _ => .error .invalidIpv6

/-- A part of a domain whose Punycode form, if it has one, stands for a text that needs it: one with a character beyond
ASCII, and without controls or capital letters. -/
def isReadable (part : List Char) : Bool :=
  match afterFront? "xn--".toList part with
  | none => true
  | some encoded =>
    (Punycode.decode? encoded).any fun text =>
      text.any (0x80 ≤ ·.toNat) && text.all fun c => !isUpper c && !(0x80 ≤ c.toNat && c.toNat ≤ 0x9f)

/-- The check of the host of a web address. -/
def checkHost (host : List Char) : Except Error Unit :=
  if host.head? == some '[' then checkBracketed host
  else
    let domain := (decodeLossy (percentDecode host)).map lowerChar
    if domain.any isForbiddenInDomain || !(splitAt '.' domain).all isReadable then .error .invalidDomain
    else if domain.isEmpty then .error .emptyHost
    else if endsInNumber domain && !isIpv4 domain then .error .invalidIpv4
    else .ok ()

/-- The check of a host of any other scheme. -/
def checkOpaqueHost (host : List Char) : Except Error Unit :=
  if host.head? == some '[' then checkBracketed host
  else if host.any isForbiddenInHost then .error .invalidDomainCharacter
  else .ok ()

end Runbook.Url

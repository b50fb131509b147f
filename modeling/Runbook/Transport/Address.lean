import Runbook.Transport.Basic

/-!
Where a request goes: a host and a port, and what is asked for there.
-/

namespace Runbook.Transport

open Runbook.Text

/-- A host with its port, and what is asked for there. -/
structure Address where
  host : String
  port : Nat
  target : String
deriving DecidableEq, Repr

namespace Address

/-- The port of a scheme where none is given. -/
def standardPort (scheme : String) : Nat := if scheme == "https" then 443 else 80

/-- The characters that a query writes as percent-encoded octets. -/
def queryEscapes : List Char := [' ', '"', '<', '>', '#', '\'']

/-- The host and the port of an authority without credentials; a host in brackets may hold colons. -/
def hostAndPort (authority : List Char) : List Char × List Char :=
  match authority with
  | '[' :: rest =>
    let host := rest.takeWhile (· != ']')
    (host, (rest.drop (host.length + 1)).dropWhile (· == ':'))
  | _ => (cut? ':' authority).getD (authority, [])

/-- The address of a URL, given as it was written too. -/
def ofUrl (url : Url) (text : String) : Address :=
  let clean := (text.toList.filter fun c => 0x20 < c.toNat).dropWhile (· != ':')
  let inner := (clean.drop 1).dropWhile Url.SchemeKind.web.isSlash
  let authority := inner.takeWhile (!Url.SchemeKind.web.endsAuthority ·)
  let rest := (inner.drop authority.length).takeWhile (· != '#')
  let (host, port) := hostAndPort ((splitAt '@' authority).getLastD [])
  let query := match cut? '?' rest with
    | some (_, query) => '?' :: percentEncode queryEscapes query
    | none => []
  { host := lower (String.ofList host)
    port := (natural? port).getD (standardPort url.scheme)
    target := (if url.path.isEmpty then "/" else url.path) ++ String.ofList query }

end Address
end Runbook.Transport

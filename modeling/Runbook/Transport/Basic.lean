import Runbook.Exchange
import Runbook.Text.Ascii
import Runbook.Url.Basic

/-!
What a transport checks before it connects: the URL, the headers, and then the scheme.
-/

namespace Runbook.Transport

open Runbook.Text

/-- The URL that a request goes to, if it is one. -/
def target (request : Request) : Except NetworkError Url :=
  (Url.parse request.url).mapError fun error =>
    { cause := "invalid URL '" ++ request.url ++ "': " ++ error.message }

/-- A character of a header name. -/
def isNameChar (c : Char) : Bool := isLetter c || isDigit c || "!#$%&'*+-.^_\x60|~".toList.contains c

/-- A character of a header value: no control but the tab. -/
def isValueChar (c : Char) : Bool := c == '\t' || (0x20 ≤ c.toNat && c.toNat != 0x7f)

/-- A header that can be sent. -/
def isSendable (header : String × String) : Bool :=
  !header.1.isEmpty && header.1.toList.all isNameChar && header.2.toList.all isValueChar

/-- The schemes that a transport serves. -/
def schemes : List String := ["http", "https"]

/-- The check of a request before anything is sent. -/
def check (request : Request) : Except NetworkError Url := do
  let url ← target request
  if !request.headers.all isSendable then throw { cause := "builder error" }
  if !schemes.contains url.scheme then throw { cause := "builder error for url (" ++ request.url ++ ")" }
  return url

/-- What comes back where nothing can be connected to: a request that can be sent fails with the given cause. -/
def unreachable (cause : String) (request : Request) : Outcome :=
  match check request with
  | .error error => .error error
  | .ok _ => .error { cause }

end Runbook.Transport

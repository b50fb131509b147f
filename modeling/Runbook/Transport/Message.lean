import Runbook.Transport.Address
import Runbook.Text.Utf8

/-!
Messages of HTTP 1.1: the text of a request, and the response that octets are, once they are complete.
-/

namespace Runbook.Transport

open Runbook.Text

/-- The headers that a request has unless it gives them other values. -/
def standardHeaders (address : Address) (request : Request) : List (String × String) :=
  let port := if address.port == 80 then "" else ":" ++ toString address.port
  let length := request.body.map fun body => ("content-length", toString body.utf8ByteSize)
  [("host", address.host ++ port), ("accept", "*/*"), ("connection", "close")] ++ length.toList

/-- The text of a request. -/
def requestText (address : Address) (request : Request) : String :=
  let standard := (standardHeaders address request).filter fun header =>
    !request.headers.any fun given => sameName given.1 header.1
  let lines := (standard ++ request.headers).map fun (name, value) => lower name ++ ": " ++ value ++ "\r\n"
  request.method.name ++ " " ++ address.target ++ " HTTP/1.1\r\n" ++ String.join lines ++ "\r\n" ++
    request.body.getD ""

/-- A response without the time that it took. -/
structure Response where
  status : Nat
  headers : Dict String
  body : String
deriving DecidableEq, Repr

/-- What octets are so far. -/
inductive Received where
  | incomplete
  | complete (response : Response)
  /-- The octets are no response, whatever follows. -/
  | malformed
deriving DecidableEq, Repr

/-- The octets before and after the first empty line. -/
def splitHead? : List Nat → Option (List Nat × List Nat)
  | 13 :: 10 :: 13 :: 10 :: rest => some ([], rest)
  | octet :: rest => (splitHead? rest).map fun (head, body) => (octet :: head, body)
  | [] => none

/-- A header line: the name in lower case, and the value. -/
def headerOf? (line : List Char) : Option (String × String) :=
  (cut? ':' line).map fun (name, value) => (lower (String.ofList name), String.ofList (trim value))

/-- The status of a status line. -/
def statusOf? (line : List Char) : Option Nat :=
  match splitAt ' ' line with
  | version :: status :: _ => if "HTTP/1.".toList.isPrefixOf version then natural? status else none
  | _ => none

/-- The body of chunks that are all there. The fuel bounds the number of chunks. -/
def chunked : Nat → List Nat → Except Received (List Nat)
  | 0, _ => .error .malformed
  | fuel + 1, octets =>
    let digits := (octets.takeWhile (· != 10)).map Char.ofNat |>.takeWhile isHexDigit
    let rest := (octets.dropWhile (· != 10)).drop 1
    let size := digits.foldl (fun size c => size * 16 + hexValue c) 0
    if !octets.contains 10 then .error .incomplete
    else if digits.isEmpty then .error .malformed
    else if size == 0 then .ok []
    else if rest.length < size + 2 then .error .incomplete
    else (chunked fuel (rest.drop (size + 2))).map (rest.take size ++ ·)

/-- The octets of the body, once they are complete. The flag tells that no octets follow. -/
def bodyOf (method : Method) (status : Nat) (headers : Dict String) (isClosed : Bool) (octets : List Nat) :
    Except Received (List Nat) :=
  if method = .head || status == 204 || status == 304 then .ok []
  else
    match headers.find? "transfer-encoding", (headers.find? "content-length").bind fun text => natural? text.toList with
    | some coding, _ =>
      if holds "chunked".toList (lower coding).toList then chunked (octets.length + 1) octets
      else if isClosed then .ok octets else .error .incomplete
    | none, some length => if octets.length < length then .error .incomplete else .ok (octets.take length)
    | none, none => if isClosed then .ok octets else .error .incomplete

/-- The text of octets. -/
def textOf (octets : List Nat) : String :=
  (String.fromUTF8? ⟨(octets.map Nat.toUInt8).toArray⟩).getD (String.ofList (decodeLossy octets))

/-- What octets are so far. The flag tells that no octets follow. -/
def receive (method : Method) (isClosed : Bool) (octets : List Nat) : Received :=
  match splitHead? octets with
  | none => .incomplete
  | some (head, rest) =>
    match lines (decodeLossy head) with
    | [] => .malformed
    | first :: headerLines =>
      match statusOf? first, headerLines.mapM headerOf? with
      | some status, some headers =>
        let headers := Dict.ofPairs headers
        match bodyOf method status headers isClosed rest with
        | .ok body => .complete ⟨status, headers, textOf body⟩
        | .error received => received
      | _, _ => .malformed

end Runbook.Transport

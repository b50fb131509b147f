import Runbook.Dict
import Runbook.Json.Reader
import Runbook.Method
import Runbook.Text.Blank
import Runbook.Text.Pieces

/-!
Exchanges: a request that is ready to be sent, and what comes back. Also how the URL and the headers of a request are
put together.
-/

namespace Runbook

open Runbook.Text

/-- A request with nothing left to fill in. The timeout is in milliseconds. -/
structure Request where
  method : Method
  url : String
  headers : Dict String := []
  body : Option String := none
  timeout : Nat := 30000
deriving DecidableEq, Repr

/-- A response, with the milliseconds from sending the request to the end of the body. Header names are in lower
case. -/
structure Reply where
  status : Nat
  headers : Dict String := []
  body : String := ""
  millis : Nat := 0
deriving DecidableEq, Repr

/-- Why no response came. -/
structure NetworkError where
  cause : String
  timedOut : Bool := false
deriving DecidableEq, Repr

/-- The wording of a network error. -/
def NetworkError.message (error : NetworkError) : String := "network error: " ++ error.cause

/-- What comes back for a request. -/
abbrev Outcome := Except NetworkError Reply

/-- The body of a response as JSON, if it is JSON. -/
def Reply.json? (reply : Reply) : Option Json := Json.parse? reply.body

namespace Request

/-- A URL with a scheme and two slashes at its front. -/
def isAbsolute (url : List Char) : Bool :=
  match url with
  | c :: rest =>
    isLetter c &&
      (afterFront? [':', '/', '/'] (rest.dropWhile fun c =>
        isLetter c || isDigit c || c == '+' || c == '.' || c == '-')).isSome
  | [] => false

/-- A slash. -/
def isSlash (c : Char) : Bool := c == '/'

/-- The URL that a request goes to: an absolute one as it is, any other after the base with one slash between. -/
def resolveUrl (base : Option String) (url : String) : Except NetworkError String :=
  if isAbsolute url.toList then .ok url
  else
    match base with
    | none => .error { cause := "relative URL '" ++ url ++ "' but the environment has no base_url" }
    | some base =>
      let front := String.ofList (dropBack isSlash base.toList)
      let path := dropFront isSlash url.toList
      .ok (if path.isEmpty then front else front ++ "/" ++ String.ofList path)

/-- A dictionary has a name in any case. -/
def hasName (headers : Dict String) (name : String) : Bool := headers.any fun header => sameName header.1 name

/-- A default header joins the headers unless they have its name. -/
def addDefault (headers : Dict String) (header : String × String) : Dict String :=
  if hasName headers header.1 then headers else headers.insert header.1 header.2

/-- The headers of a request: its own, the defaults whose names it does not have, and a content type if there is a
body and no header says its type. -/
def mergeHeaders (defaults : List (String × String)) (own : Dict String) (hasBody : Bool) : Dict String :=
  let merged := defaults.foldl addDefault own
  if hasBody && !hasName merged "content-type" then merged.insert "Content-Type" "application/json" else merged

end Request
end Runbook

import Runbook.Text.Blank
import Runbook.Url.Host

/-!
Absolute URLs: their scheme and their path, and why a text is none. Only what requests and file names depend on is
kept.
-/

namespace Runbook

open Runbook.Text

/-- An absolute URL. -/
structure Url where
  scheme : String
  path : String
deriving DecidableEq, Repr

namespace Url

/-- How a scheme treats what follows it. -/
inductive SchemeKind where
  | web
  | file
  | other
deriving DecidableEq, Repr

/-- The kind of a scheme. -/
def SchemeKind.ofScheme (scheme : String) : SchemeKind :=
  if ["http", "https", "ws", "wss", "ftp"].contains scheme then .web
  else if scheme == "file" then .file
  else .other

/-- A backslash is a slash for these schemes. -/
def SchemeKind.isSpecial (kind : SchemeKind) : Bool := kind != .other

/-- A character that ends the authority. -/
def SchemeKind.endsAuthority (kind : SchemeKind) (c : Char) : Bool :=
  c == '/' || c == '?' || c == '#' || (kind.isSpecial && c == '\\')

/-- A slash between path segments. -/
def SchemeKind.isSlash (kind : SchemeKind) (c : Char) : Bool :=
  c == '/' || (kind.isSpecial && c == '\\')

/-- The characters that a path writes as percent-encoded octets. -/
def pathEscapes : List Char := [' ', '"', '<', '>', '\x60', '#', '?', '\x7b', '\x7d']

/-- The scheme at the front of a text in lower case, and what follows its colon. -/
def takeScheme? (text : List Char) : Option (String × List Char) :=
  match cut? ':' text with
  | some (first :: more, rest) =>
    if isLetter first && more.all fun c => isLetter c || isDigit c || c == '+' || c == '-' || c == '.' then
      some (String.ofList ((first :: more).map lowerChar), rest)
    else none
  | _ => none

/-- A segment that stays where it is. -/
def isSingleDot (segment : List Char) : Bool :=
  [".", "%2e"].contains (String.ofList (segment.map lowerChar))

/-- A segment that goes up. -/
def isDoubleDot (segment : List Char) : Bool :=
  ["..", ".%2e", "%2e.", "%2e%2e"].contains (String.ofList (segment.map lowerChar))

/-- The segments of a path with the dot segments carried out; a dot segment at the end leaves an empty one. The
segments already passed are held in reverse. -/
def carryOut (passed : List (List Char)) : List (List Char) → List (List Char)
  | [] => passed.reverse
  | segment :: rest =>
    if isDoubleDot segment then
      carryOut (if rest.isEmpty then [] :: passed.drop 1 else passed.drop 1) rest
    else if isSingleDot segment then carryOut (if rest.isEmpty then [] :: passed else passed) rest
    else carryOut (segment :: passed) rest

/-- The path that starts at a text, up to a query or fragment. -/
def readPath (kind : SchemeKind) (text : List Char) : String :=
  let raw := text.takeWhile fun c => c != '?' && c != '#'
  let body := match raw with
    | c :: rest => if kind.isSlash c then rest else raw
    | [] => []
  if raw.isEmpty && !kind.isSpecial then ""
  else
    let segments := (splitBy kind.isSlash body).map (percentEncode pathEscapes)
    "/" ++ String.ofList (joinWith ['/'] (carryOut [] segments))

/-- The text of the host: up to a colon outside brackets or the end of the authority. -/
def takeHost (kind : SchemeKind) : Bool → List Char → List Char × List Char
  | _, [] => ([], [])
  | inside, c :: rest =>
    if kind.endsAuthority c || (c == ':' && !inside) then ([], c :: rest)
    else
      let inside := if c == '[' then true else if c == ']' then false else inside
      let taken := takeHost kind inside rest
      (c :: taken.1, taken.2)

/-- The check of a port: digits below `2 ^ 16` up to the end of the authority. -/
def checkPort (text : List Char) : Except Error (List Char) :=
  let digits := text.takeWhile isDigit
  let rest := text.dropWhile isDigit
  if 65535 < decimalValue digits then .error .invalidPort
  else
    match rest with
    | [] => .ok []
    | c :: _ => if ['/', '\\', '?', '#'].contains c then .ok rest else .error .invalidPort

/-- The part of an authority after its last at sign, and whether there are credentials before one. An authority that
starts with its only at sign and ends there has no host. -/
def dropCredentials (kind : SchemeKind) (text : List Char) : Except Error (Bool × List Char) :=
  let authority := text.takeWhile (!kind.endsAuthority ·)
  let rest := text.drop authority.length
  match (splitAt '@' authority).reverse with
  | host :: front =>
    let credentials := joinWith ['@'] front.reverse
    if front.isEmpty then .ok (false, text)
    else if credentials.isEmpty && host.isEmpty && !rest.isEmpty then .error .emptyHost
    else .ok (!credentials.isEmpty, host ++ rest)
  | [] => .ok (false, text)

/-- The path of a text that starts with an authority. -/
def readAuthority (kind : SchemeKind) (text : List Char) : Except Error String := do
  let (credentials, text) ← dropCredentials kind text
  let (host, rest) := takeHost kind false text
  if host.isEmpty && (kind.isSpecial || rest.head? == some ':' || credentials) then throw .emptyHost
  if kind.isSpecial then checkHost host else checkOpaqueHost host
  let rest ← match rest with
    | ':' :: port => checkPort port
    | _ => pure rest
  return readPath kind rest

/-- A drive such as `C:` or `C|`, which is no host. -/
def isDrive (text : List Char) : Bool :=
  match text with
  | [letter, mark] => isLetter letter && (mark == ':' || mark == '|')
  | _ => false

/-- The path of a file URL. -/
def readFile (text : List Char) : Except Error String :=
  let slash := SchemeKind.file.isSlash
  match text with
  | a :: b :: rest =>
    if slash a && slash b then do
      let host := rest.takeWhile (!SchemeKind.file.endsAuthority ·)
      if host.isEmpty || isDrive host then return readPath .file rest
      checkHost host
      return readPath .file (rest.drop host.length)
    else return readPath .file text
  | _ => return readPath .file text

/-- The URL that a text is. Controls and spaces around it do not count, nor do tabs and line ends within it. -/
def parse (text : String) : Except Error Url :=
  let inner := strip (fun c => c.toNat ≤ 0x20) text.toList
  let clean := inner.filter fun c => c != '\t' && c != '\n' && c != '\r'
  match takeScheme? clean with
  | none => .error .relative
  | some (scheme, rest) =>
    let kind := SchemeKind.ofScheme scheme
    Except.map (Url.mk scheme) <|
      match kind with
      | .web => readAuthority kind (rest.dropWhile kind.isSlash)
      | .file => readFile rest
      | .other =>
        match rest with
        | '/' :: '/' :: authority => readAuthority kind authority
        | '/' :: _ => .ok (readPath kind rest)
        | _ => .ok (String.ofList (percentEncode [] (rest.takeWhile fun c => c != '?' && c != '#')))

end Url
end Runbook

import Runbook.Command.Basic
import Runbook.Transport.Message
import Std.Async.DNS
import Std.Async.Select
import Std.Async.Signal
import Std.Async.TCP
import Std.Async.Timer
import Std.Sync.Mutex
import Std.Time.DateTime

/-!
The command line on a real machine: its files, its clock, its network and its terminal.
-/

namespace Runbook.Main

open Std.Async

/-- What all computations of a command share: whose turn it is, and whether the command has been canceled. -/
structure Shared where
  turn : Std.BaseMutex
  canceled : IO.Ref Bool

/-- A computation on the real machine, which holds the turn except at requests and pauses. -/
abbrev OnHost (α : Type) := ReaderT Shared IO α

/-- An effect without the turn. -/
def away {α : Type} (effect : IO α) : OnHost α := fun shared => do
  shared.turn.unlock
  try effect finally shared.turn.lock

/-- The kind of a file error. -/
def fileError : IO.Error → FileError
  | .noFileOrDirectory .. => .notFound
  | .alreadyExists .. => .alreadyThere
  | .inappropriateType _ 20 _ => .notDirectory
  | .inappropriateType _ 21 _ => .isDirectory
  | .invalidArgument _ 36 _ => .nameTooLong
  | .permissionDenied _ code details => .other (details ++ " (os error " ++ toString code ++ ")")
  | error => .other (toString error)

/-- An effect on files. -/
def onFiles {α : Type} (effect : IO α) : OnHost (Except FileError α) := fun _ =>
  try return .ok (← effect) catch error => return .error (fileError error)

/-- The text of a file. -/
def readText (path : String) : IO (Except FileError String) := do
  try
    let octets ← IO.FS.readBinFile path
    return ((String.fromUTF8? octets).map Except.ok).getD (.error .notText)
  catch error => return .error (fileError error)

instance : Files (ReaderT Shared IO) where
  kind? path := fun _ => do
    try
      let found := (← IO.currentDir) / path
      if ← found.isDir then return some .directory
      return if ← found.pathExists then some .file else none
    catch _ => return none
  readText path := fun _ => readText path
  names path := onFiles do
    let entries ← ((← IO.currentDir) / path).readDir
    return entries.toList.map (·.fileName)
  makeDirectory path := onFiles (IO.FS.createDir path)
  write path text := onFiles (IO.FS.writeFile path text)
  append path text := onFiles do
    let handle ← IO.FS.Handle.mk path .append
    handle.putStr text

/-- The present time. -/
def now : IO Time.Instant := do
  let nanos := (← Std.Time.Timestamp.now).toNanosecondsSinceUnixEpoch.toInt
  return ⟨nanos / 1000000000, (nanos % 1000000000).toNat⟩

/-- The first of the addresses of a host that takes a connection. -/
def connect (address : Transport.Address) : List Std.Net.IPAddr → Async TCP.Socket.Client
  | [] => throw (.userError "no address")
  | found :: rest => do
    let port := address.port.toUInt16
    let place : Std.Net.SocketAddress := match found with
      | .v4 addr => .v4 { addr, port }
      | .v6 addr => .v6 { addr, port }
    let socket ← TCP.Socket.Client.mk
    try
      socket.connect place
      return socket
    catch _ => connect address rest

/-- What is received until the response is complete. -/
partial def receive (socket : TCP.Socket.Client) (method : Method) (octets : ByteArray) : Async Transport.Response := do
  let more ← socket.recv? 65536
  let octets := octets ++ more.getD .empty
  match Transport.receive method more.isNone (octets.toList.map UInt8.toNat) with
  | .complete response => return response
  | .malformed => throw (.userError "malformed response")
  | .incomplete =>
    if more.isNone then throw (.userError "incomplete response")
    receive socket method octets

/-- A request is sent to an address and answered. -/
def exchange (address : Transport.Address) (request : Request) : Async Transport.Response := do
  let found ← DNS.getAddrInfo address.host (toString address.port)
  let socket ← connect address found.toList
  socket.send (Transport.requestText address request).toUTF8
  receive socket request.method .empty

/-- The response to a request, unless its time runs out first. -/
def exchangeInTime (address : Transport.Address) (request : Request) : Async (Option Transport.Response) :=
  Async.race (some <$> exchange address request) do
    sleep (.ofNat request.timeout)
    return none

/-- What comes back for a request over the network. Only plain connections are made. -/
def outcome (request : Request) : IO Outcome := do
  let failed := "error sending request for url (" ++ request.url ++ ")"
  match Transport.check request with
  | .error error => return .error error
  | .ok url =>
    if url.scheme != "http" then return .error { cause := failed }
    let start ← IO.monoMsNow
    try
      match ← (exchangeInTime (.ofUrl url request.url) request).block with
      | some response =>
        let millis := (← IO.monoMsNow) - start
        return .ok { status := response.status, headers := response.headers, body := response.body, millis }
      | none => return .error { cause := "request timed out: " ++ failed, timedOut := true }
    catch _ => return .error { cause := failed }

/-- The answer to a request. -/
def send (request : Request) : OnHost Answer := fun shared => do
  let start ← IO.monoMsNow
  let outcome ← away (outcome request) shared
  return { outcome, elapsed := (← IO.monoMsNow) - start, canceled := ← shared.canceled.get }

/-- Some milliseconds pass, or fewer if the command is canceled. -/
partial def rest (shared : Shared) (millis : Nat) : IO Unit := do
  if millis = 0 || (← shared.canceled.get) then return
  let part := min millis 50
  IO.sleep part.toUInt32
  rest shared (millis - part)

/-- Computations are taken from a list that workers share until none is left. One that breaks down has no result. -/
partial def work {α : Type} (shared : Shared) (left : IO.Ref (List (OnHost α))) (ended : IO.Ref (List α)) : IO Unit := do
  match ← left.modifyGet fun computations => (computations.head?, computations.tail) with
  | none => return
  | some computation =>
    shared.turn.lock
    try
      let result ← computation shared
      ended.modify (result :: ·)
    catch _ => pure ()
    finally shared.turn.unlock
    work shared left ended

/-- The results of computations that workers carry out side by side. -/
def together {α : Type} (workers : Nat) (computations : List (OnHost α)) : OnHost (List α) := fun shared => do
  let left ← IO.mkRef computations
  let ended ← IO.mkRef []
  let wait : IO Unit := do
    let tasks ← (List.range (min workers computations.length)).mapM fun _ =>
      IO.asTask (work shared left ended) .dedicated
    tasks.forM fun task => do
      match ← IO.wait task with
      | .ok () => return
      | .error error => throw error
  away wait shared
  return (← ended.get).reverse

instance : Host (ReaderT Shared IO) where
  workingDirectory := fun _ => return (← IO.currentDir).toString
  setting? name := fun _ => IO.getEnv name
  now := fun _ => now
  draws := fun _ => do
    let octets ← IO.getRandomBytes 8
    return { now := ← now, seed := octets.toList.foldl (fun seed octet => seed * 256 + octet.toNat) 0 }
  isTerminal := fun _ => do (← IO.getStdout).isTty
  print text := fun _ => do
    let output ← IO.getStdout
    output.putStr text
    output.flush
  complain text := fun _ => do (← IO.getStderr).putStr text
  send := send
  pause millis := fun shared => do
    if 0 < millis then away (rest shared millis) shared
    shared.canceled.get

instance : Crew (ReaderT Shared IO) where
  together := together

/-- An interrupt cancels the command. -/
def watchInterrupts (canceled : IO.Ref Bool) : IO Unit := do
  let waiter ← Signal.Waiter.mk .sigint true
  let signal ← waiter.wait
  discard (IO.mapTask (fun _ => canceled.set true) signal)

end Runbook.Main

/-- The command line is carried out, and its exit status is the result. -/
def main (words : List String) : IO UInt32 := do
  let shared : Runbook.Main.Shared := { turn := ← Std.BaseMutex.new, canceled := ← IO.mkRef false }
  Runbook.Main.watchInterrupts shared.canceled
  shared.turn.lock
  let exit ← (Runbook.Command.perform words : Runbook.Main.OnHost Runbook.Command.Exit).run shared
  return exit.status.toUInt32

import Runbook.Progress.Event

/-!
The channel between a run and whoever watches it. It holds a bounded number of events; publishing never waits, and an
event that finds the channel full is lost.
-/

namespace Runbook

/-- A bounded channel of progress events. -/
structure Channel where
  capacity : Nat
  queue : List ProgressEvent := []
  /-- The sending end is in use. -/
  hasSender : Bool := true
  /-- The receiving end is in use. -/
  hasReceiver : Bool := true
deriving DecidableEq, Repr

namespace Channel

/-- An empty channel; it holds at least one event. -/
def ofCapacity (capacity : Nat) : Channel := { capacity := max capacity 1 }

/-- An event is published: whether it was delivered, and the channel after it. -/
def emit (channel : Channel) (event : ProgressEvent) : Bool × Channel :=
  if channel.hasReceiver && channel.queue.length < channel.capacity then
    (true, { channel with queue := channel.queue ++ [event] })
  else (false, channel)

/-- What a receiver finds. -/
inductive Received where
  | event (content : ProgressEvent)
  | empty
  | disconnected
deriving DecidableEq, Repr

/-- The first event is taken, if there is one. -/
def receive (channel : Channel) : Received × Channel :=
  match channel.queue with
  | event :: rest => (.event event, { channel with queue := rest })
  | [] => (if channel.hasSender then .empty else .disconnected, channel)

/-- Every event that waits is taken. -/
def drain (channel : Channel) : List ProgressEvent × Channel := (channel.queue, { channel with queue := [] })

/-- The receiving end goes away, and the events that wait with it. -/
def dropReceiver (channel : Channel) : Channel := { channel with hasReceiver := false, queue := [] }

/-- The sending end goes away; the events that wait can still be received. -/
def dropSender (channel : Channel) : Channel := { channel with hasSender := false }

end Channel
end Runbook

import ChargeLink.Frame.Codec

/-!
# Links

A link is what lies between a session and its peer: messages that have come and
wait to be read, texts that wait to be written, and what the peer has got. A
peer that does not read takes only so many bytes; a message that does not fit
waits, and everything after it waits behind it.
-/

namespace ChargeLink

/-- What comes from the peer. -/
inductive Arrival where
  | text (s : String)
  | binary
  | ping (length : Nat)
  | pong
  | close
  /-- The stream ended without a farewell, or what came is no message. -/
  | failure
  deriving DecidableEq, Repr

/-- What the peer gets. -/
inductive Delivery where
  | text (s : String)
  | pong (length : Nat)
  | close
  deriving DecidableEq, Repr

/-- Why a connection ended. -/
inductive Disconnect where
  /-- The peer said farewell. -/
  | peerClosed
  /-- Nothing could be read or written any more. -/
  | transportError
  /-- The session was closed on this side. -/
  | sessionClosed
  /-- The process shuts down. -/
  | shutdown
  deriving DecidableEq, Repr

/-- How far a connection has come. -/
inductive Stage where
  | running
  /-- What waits is still written, until a deadline. -/
  | flushing (reason : Disconnect) (deadline : Nat)
  | ended (reason : Disconnect)
  deriving DecidableEq, Repr

namespace Disconnect

/-- The name of the reason. -/
def name : Disconnect → String
  | peerClosed => "PeerClosed"
  | transportError => "TransportError"
  | sessionClosed => "SessionClosed"
  | shutdown => "Shutdown"

end Disconnect

/-- How many bytes the id of an own call takes on its way. -/
def callIdSize : Nat := 36

/-- How many bytes a message of that length takes with its header. -/
def messageSize (length : Nat) : Nat :=
  if length ≤ 125 then length + 2
  else if length ≤ 65535 then length + 4
  else length + 10

/-- How many bytes a text of the session takes; the short id of an own call stands for one of full
length. -/
def textSize (text : String) : Nat :=
  match Frame.ofText text with
  | .ok (.call id _ _) => messageSize (text.utf8ByteSize + (callIdSize - id.utf8ByteSize))
  | _ => messageSize text.utf8ByteSize

/-- What lies between a session and its peer. -/
structure Link where
  /-- What has come and waits to be read, the oldest first. -/
  arrivals : List Arrival
  /-- The texts that wait to be written, the oldest first. -/
  outgoing : List String
  /-- What the peer has got and nobody has looked at, the oldest first. -/
  delivered : List Delivery
  /-- How many bytes the peer still takes; none if it reads as they come. -/
  room : Option Nat
  /-- Whether the peer has said farewell; after that it gets nothing. -/
  farewell : Bool
  stage : Stage

namespace Link

/-- A fresh link to a peer that takes so many bytes. -/
def create (room : Option Nat) : Link :=
  ⟨[], [], [], room, false, .running⟩

/-- Whether the connection has ended. -/
def isEnded (l : Link) : Bool :=
  match l.stage with
  | .ended _ => true
  | _ => false

/-- Why the connection ended, if it has. -/
def reason? (l : Link) : Option Disconnect :=
  match l.stage with
  | .ended r => some r
  | _ => none

/-- Something comes from the peer. -/
def arrive (l : Link) (a : Arrival) : Link :=
  { l with arrivals := l.arrivals ++ [a] }

/-- Texts wait to be written, unless the connection has ended. -/
def queue (l : Link) (texts : List String) : Link :=
  if l.isEnded then l else { l with outgoing := l.outgoing ++ texts }

/-- Whether so many bytes fit. -/
def fits (l : Link) (size : Nat) : Bool :=
  l.room.all fun n => size ≤ n

/-- The peer gets a message of that size, unless it has said farewell. -/
def deliver (l : Link) (d : Delivery) (size : Nat) : Link :=
  if l.farewell then l
  else { l with delivered := l.delivered ++ [d], room := l.room.map fun n => n - size }

/-- The connection ends; what still waits is lost. -/
def finish (l : Link) (reason : Disconnect) : Link :=
  { l with arrivals := [], outgoing := [], stage := .ended reason }

/-- Takes what the peer has got. -/
def takeDelivered (l : Link) : List Delivery × Link :=
  (l.delivered, { l with delivered := [] })

@[simp]
theorem isEnded_create (room : Option Nat) : (create room).isEnded = false :=
  rfl

@[simp]
theorem isEnded_finish (l : Link) (reason : Disconnect) : (l.finish reason).isEnded = true :=
  rfl

theorem isEnded_iff_reason? {l : Link} : l.isEnded = true ↔ ∃ r, l.reason? = some r := by
  cases h : l.stage <;> simp [isEnded, reason?, h]

@[simp]
theorem stage_arrive (l : Link) (a : Arrival) : (l.arrive a).stage = l.stage :=
  rfl

@[simp]
theorem stage_queue (l : Link) (texts : List String) : (l.queue texts).stage = l.stage := by
  unfold queue
  split <;> rfl

@[simp]
theorem stage_deliver (l : Link) (d : Delivery) (size : Nat) :
    (l.deliver d size).stage = l.stage := by
  unfold deliver
  split <;> rfl

/-- What is delivered comes after what has been delivered. -/
theorem delivered_deliver {l : Link} (h : l.farewell = false) (d : Delivery) (size : Nat) :
    (l.deliver d size).delivered = l.delivered ++ [d] := by
  simp [deliver, h]

end Link

end ChargeLink

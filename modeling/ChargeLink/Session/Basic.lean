import ChargeLink.Dispatch.Reply
import ChargeLink.Frame.Codec
import ChargeLink.Session.Config
import ChargeLink.Session.Event
import ChargeLink.Session.PendingTable
import ChargeLink.Session.Supervisor

/-!
# Sessions

A session is one connection as an end of it sees it: the slot for its one
outstanding call, the queue behind it, the inbound calls that wait for the
worker, and the phase of its life. Everything a session does is an operation on
a `Turn`: the session with the timers it shares with others, the time, and the
effects brought about so far, the oldest first. Sends and answers are in
`Session.Outbound`, inbound calls in `Session.Inbound`.
-/

namespace ChargeLink

/-- Who waits for a call, and what its confirmation has to be. -/
structure Owner where
  ticket : Nat
  confirmation : PayloadType

/-- A call that waits for the slot. -/
structure QueuedCall where
  owner : Owner
  action : String
  payload : Json

/-- A call from the peer. -/
structure InboundCall where
  id : String
  action : String
  payload : Json

/-- What a call's timer is for. -/
structure Expiry where
  session : Nat
  call : String
  deriving DecidableEq, Repr

/-- What a session brings about. What nobody outside gets to see stands for the session's log. -/
inductive Effect where
  /-- A text was handed to the transport. -/
  | sent (text : String)
  /-- A send was accepted: its call starts at once or waits in the queue. -/
  | accepted (ticket : Nat)
  /-- A call was started. -/
  | started (ticket : Nat)
  /-- A call was transmitted under an id. -/
  | called (ticket : Nat) (id : String)
  /-- The outcome of a send. -/
  | settled (ticket : Nat) (outcome : Except CallFailure Value)
  /-- An event was published. -/
  | published (event : SessionEvent)
  /-- The handler of an inbound call was entered with a request. -/
  | entered (call : InboundCall) (handler : Handler) (request : Value)
  /-- The handler of an inbound call has ended. -/
  | returned (call : InboundCall) (answer : Answer)
  /-- An inbound call has been answered or refused. -/
  | dispatched (call : InboundCall) (result : Except DispatchFault Json)

/-- One connection as an end of it sees it. -/
structure Session where
  number : Nat
  chargePointId : String
  registry : Registry
  config : SessionConfig
  codec : Codec
  /-- What the ids of own calls start with. -/
  label : String
  phase : Phase
  /-- How many calls the session has let fail in order to close, once it has. -/
  abandoned : Option Nat
  /-- Whether the transport still takes texts. -/
  linked : Bool
  /-- How many sends there have been. -/
  issued : Nat
  /-- How many own calls have been transmitted. -/
  transmitted : Nat
  slot : PendingTable Nat Owner
  queue : List QueuedCall
  inbox : List InboundCall
  /-- Whether the worker has taken up the first call of the inbox. -/
  takenUp : Bool
  /-- The inbound call whose handler is running. -/
  running : Option (InboundCall × Handler)

/-- A session at work. -/
structure Turn where
  session : Session
  timers : Supervisor Expiry
  now : Nat
  effects : List Effect

namespace Session

/-- The version that the session speaks. -/
def version (s : Session) : Version :=
  s.registry.version

/-- The role that the session plays. -/
def role (s : Session) : Role :=
  s.registry.role

/-- Whether the session is open. -/
def isOpen (s : Session) : Bool :=
  s.phase = .opened

/-- The id of the next own call: a number after the session's label. -/
def nextId (s : Session) : String :=
  s.label ++ "#" ++ toString (s.transmitted + 1)

/-- The event of something that happens to the session. -/
def event (s : Session) (kind : EventKind) : SessionEvent :=
  ⟨s.chargePointId, kind⟩

/-- The session in a diagnostic, under the given id. -/
def diagnostic (s : Session) (id : String) : String :=
  "Session \x7b id: SessionId(" ++ id ++ "), charge_point_id: " ++
    Text.diagnostic s.chargePointId ++ ", version: " ++ s.version.name ++ ", state: " ++
    s.phase.tag ++ " \x7d"

end Session

namespace Turn

/-- Adds an effect. -/
def emit (t : Turn) (e : Effect) : Turn :=
  { t with effects := t.effects ++ [e] }

/-- Publishes an event of the session. -/
def publish (t : Turn) (kind : EventKind) : Turn :=
  t.emit (.published (t.session.event kind))

/-- Hands a frame to the transport, and tells whether it was taken. -/
def transmit (t : Turn) (f : Frame) : Bool × Turn :=
  if t.session.linked then (true, t.emit (.sent (t.session.codec.encode f))) else (false, t)

/-- Opens a session. -/
def openSession (number : Nat) (chargePointId : String) (registry : Registry)
    (config : SessionConfig) (codec : Codec) (label : String) (timers : Supervisor Expiry)
    (now : Nat) : Turn :=
  let session : Session :=
    { number, chargePointId, registry, config, codec, label
      phase := .opened
      abandoned := none
      linked := true
      issued := 0
      transmitted := 0
      slot := .empty
      queue := []
      inbox := []
      takenUp := false
      running := none }
  (Turn.mk session timers now []).publish (.opened session.version session.role)

end Turn

end ChargeLink

import ChargeLink.Connection.Link
import ChargeLink.Session.Station

/-!
# Connections

A connection drives a station over a link until either side goes away, and then
closes the session. Reading, writing and looking at the signal are steps of
their own (`Connection.step?`), so any order of them is a run; `settle` takes
them in one order, reading first. After the end is decided what waits is still
written, with a farewell behind it, unless the link itself is broken; a peer that
does not take it is given up after five seconds.
-/

namespace ChargeLink

/-- How many milliseconds a peer has for what is still to be written. -/
def flushTimeout : Nat := 5000

/-- A station and the link to its peer. -/
structure Connection where
  station : Station
  link : Link

namespace Connection

/-- A step of a connection. -/
inductive Step where
  /-- Takes the next message that has come. -/
  | read
  /-- Writes the next text, or the farewell behind the last one. -/
  | write
  /-- Finds that nothing can be written any more. -/
  | writeFailure
  /-- Learns that the process shuts down. -/
  | signal
  /-- Gives up a peer that does not take what is written. -/
  | giveUp
  deriving DecidableEq, Repr

/-- Lets the station do something; the texts it sends wait to be written. -/
def onStation (c : Connection) (f : Station → Station) : Connection :=
  let s := f c.station
  ⟨s, c.link.queue (Station.texts (s.notes.drop c.station.notes.length))⟩

/-- Changes the link. -/
def onLink (c : Connection) (f : Link → Link) : Connection :=
  { c with link := f c.link }

/-- The session takes no more calls: what waits is still written unless the link is broken. -/
def windUp (c : Connection) (reason : Disconnect) : Connection :=
  if reason = .transportError then c.onLink fun l => l.finish reason
  else c.onLink fun l => { l with stage := .flushing reason (c.station.now + flushTimeout) }

/-- The end is decided: the session is closed, and the connection winds up. -/
def stop (c : Connection) (reason : Disconnect) : Connection :=
  (c.onStation fun s => s.close.2).windUp reason

/-- Takes in a message from the peer. -/
def takeIn (c : Connection) : Arrival → Connection
  | .text s => c.onStation fun st => st.act fun t => t.receive s
  | .ping length => c.onLink fun l => l.deliver (.pong length) (messageSize length)
  | .binary => c
  | .pong => c
  | .close => (c.onLink fun l => { l with farewell := true }).stop .peerClosed
  | .failure => c.stop .transportError

/-- Everything is written and the session is closed: the connection ends. -/
def conclude (c : Connection) : Connection :=
  match c.link.stage with
  | .running => c.onLink fun l => l.finish .sessionClosed
  | .flushing reason _ => c.onLink fun l => l.finish reason
  | .ended _ => c

/-- Writes the next text, or the farewell if the session is closed. -/
def write? (c : Connection) : Option Connection :=
  match c.link.outgoing with
  | text :: rest =>
    if c.link.fits (textSize text) then
      some (c.onLink fun l => { l with outgoing := rest }.deliver (.text text) (textSize text))
    else none
  | [] =>
    if !c.station.session.linked && c.link.fits (messageSize 0) then
      some (c.onLink fun l => l.deliver .close (messageSize 0)).conclude
    else none

/-- Makes a step, if it is possible. -/
def step? (c : Connection) : Step → Option Connection
  | .read =>
    match c.link.stage, c.link.arrivals with
    | .running, a :: rest => some ((c.onLink fun l => { l with arrivals := rest }).takeIn a)
    | _, _ => none
  | .write => if c.link.isEnded then none else c.write?
  | .writeFailure =>
    match c.link.stage with
    | .running => some (c.stop .transportError)
    | .flushing reason _ => some (c.onLink fun l => l.finish reason)
    | .ended _ => none
  | .signal =>
    match c.link.stage with
    | .running => some (c.stop .shutdown)
    | _ => none
  | .giveUp =>
    match c.link.stage with
    | .flushing reason deadline =>
      if deadline ≤ c.station.now then some (c.onLink fun l => l.finish reason) else none
    | _ => none

/-- The next thing to do: reading first, then the station's own work, then writing. -/
def next? (signalled : Bool) (c : Connection) : Option Connection :=
  c.step? .read <|>
  (c.station.workNow?.map fun w => c.onStation fun s => s.perform w) <|>
  c.step? .write <|>
  (if signalled then c.step? .signal else none) <|>
  c.step? .giveUp

/-- Does what needs no time, at most `fuel` pieces of it. -/
def settleFor (signalled : Bool) : (fuel : Nat) → Connection → Connection
  | 0, c => c
  | fuel + 1, c =>
    match c.next? signalled with
    | some c => settleFor signalled fuel c
    | none => c

/-- A bound on the pieces of work that can come up without new input. -/
def workBound (c : Connection) : Nat :=
  8 + 8 * (c.link.arrivals.length + c.link.outgoing.length) + 4 * c.station.workBound

/-- Does all that needs no time to pass; `signalled` tells whether the process shuts down. -/
def settle (signalled : Bool) (c : Connection) : Connection :=
  settleFor signalled c.workBound c

/-- Lets time pass. -/
def advance (signalled : Bool) (ms : Nat) (c : Connection) : Connection :=
  ((c.settle signalled).onStation fun s => s.advance ms).settle signalled

/-- Lets time pass until every call of the peer has been answered. -/
def untilIdle (signalled : Bool) (c : Connection) : Connection :=
  ((c.settle signalled).onStation fun s => s.untilIdle).settle signalled

/-- Something comes from the peer. -/
def arrive (c : Connection) (a : Arrival) : Connection :=
  c.onLink fun l => l.arrive a

end Connection

end ChargeLink

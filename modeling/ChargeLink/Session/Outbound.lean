import ChargeLink.Session.Basic

/-!
# Own calls of a session

A send is checked and encoded, and then started if the slot is free and nobody
waits for it; else it is queued or refused. A call that starts gets its timer
before it is transmitted. Settling a call and handing the free slot to the
queue are two operations: `answered` and `lapse` do the one and tell whether
there is a slot to hand on, `pump` does the other. Closing takes three of them,
between which a session is neither open nor closed.
-/

namespace ChargeLink

/-- What closing a session takes, in this order. -/
inductive ClosingStep where
  /-- The session is open no more. -/
  | start
  /-- The calls that wait for an answer or for the slot fail. -/
  | abandon
  /-- The transport is given up, and the session is closed. -/
  | finish
  deriving DecidableEq, Repr

/-- The outcome of a raw answer: its payload has to decode and to keep the rules. -/
def Owner.outcome (o : Owner) : RawOutcome → Except CallFailure Value
  | .error failure => .error failure
  | .ok payload =>
    match o.confirmation.decode payload with
    | .error fault => .error (.badConfirmation fault.report)
    | .ok v =>
      match o.confirmation.validate v with
      | some fault => .error (.badConfirmation fault)
      | none => .ok v

namespace Turn

/-- Gives an owner the outcome of its call. -/
def tell (t : Turn) (o : Owner) (raw : RawOutcome) : Turn :=
  t.emit (.settled o.ticket (o.outcome raw))

/-- Cancels the timer of a call that has been settled, and gives its owner the outcome. -/
def conclude (t : Turn) (s : Settlement Nat Owner) : Turn :=
  let timers := match s.call.timer with
    | some key => t.timers.abort key
    | none => t.timers
  { t with timers }.tell s.call.owner s.outcome

/-- Starts a call in the free slot: it gets its timer, takes the slot and is transmitted. One that
gets no timer never takes the slot, and one that is not transmitted leaves it again. The deadline is
taken to be one that the clock can tell (see `SessionConfig.callTimeout`). -/
def start (t : Turn) (c : QueuedCall) : Turn :=
  let t := t.emit (.started c.owner.ticket)
  let id := t.session.nextId
  let deadline := t.now + t.session.config.callTimeout
  match t.timers.schedule deadline ⟨t.session.number, id⟩ with
  | none => t.tell c.owner (.error (.transport noLoopMessage))
  | some (key, timers) =>
    let call : PendingCall Nat Owner := ⟨id, c.action, t.now, deadline, c.owner, some key⟩
    match t.session.slot.reserve? call with
    | none => t.tell c.owner (.error .busy)
    | some slot =>
      let t := { t with timers, session := { t.session with slot } }
      match t.transmit (.call id c.action c.payload) with
      | (true, t) =>
        { t with session := { t.session with transmitted := t.session.transmitted + 1 } }.emit
          (.called c.owner.ticket id)
      | (false, t) =>
        let (call, slot) := t.session.slot.take id
        let t := { t with session := { t.session with slot } }
        match call with
        | some c => t.conclude (c.settle t.now (.error (.transport "outbound channel closed")))
        | none => t

/-- Starts, queues or refuses a call that is fit to be sent. -/
def submit (t : Turn) (c : QueuedCall) : Turn :=
  if !t.session.isOpen then t.tell c.owner (.error .closing)
  else if t.session.queue.isEmpty && t.session.slot.isFree then
    (t.emit (.accepted c.owner.ticket)).start c
  else if t.session.config.busyPolicy = .queue ∧
      t.session.queue.length < t.session.config.queueCapacity then
    { t with session := { t.session with queue := t.session.queue ++ [c] } }.emit
      (.accepted c.owner.ticket)
  else t.tell c.owner (.error .busy)

/-- Sends a request, and gives the ticket under which its outcome will come. A request that breaks
a rule or cannot be encoded fails whatever the session's state is. -/
def send (t : Turn) (m : Message) (request : Value) : Nat × Turn :=
  let ticket := t.session.issued
  let owner : Owner := ⟨ticket, m.confirmation⟩
  let t := { t with session := { t.session with issued := ticket + 1 } }
  (ticket, match m.request.validate request with
    | some fault => t.tell owner (.error (.badRequest fault))
    | none =>
      match m.request.encode request with
      | .error fault => t.tell owner (.error (.badRequest fault))
      | .ok payload => t.submit ⟨owner, m.action, payload⟩)

/-- Starts calls of the queue, the oldest first, as long as the session is open and the slot is
free. -/
def pumpFrom : List QueuedCall → Turn → Turn
  | [], t => { t with session := { t.session with queue := [] } }
  | c :: rest, t =>
    if t.session.isOpen && t.session.slot.isFree then
      pumpFrom rest ({ t with session := { t.session with queue := rest } }.start c)
    else { t with session := { t.session with queue := c :: rest } }

/-- Hands the free slot to the queue. -/
def pump (t : Turn) : Turn :=
  pumpFrom t.session.queue t

/-- Settles the outstanding call if it has that id, and tells whether it had. -/
def settle (t : Turn) (id : String) (raw : RawOutcome) : Bool × Turn :=
  match t.session.slot.settle id t.now raw with
  | (some s, slot) => (true, { t with session := { t.session with slot } }.conclude s)
  | (none, _) => (false, t)

/-- An answer has come: it settles the call of its id, or is published as matching none. Tells
whether a call has left the slot. -/
def answered (t : Turn) (id : String) (raw : RawOutcome) : Bool × Turn :=
  match t.settle id raw with
  | (true, t) => (true, t)
  | (false, t) => (false, t.publish (.unmatched id))

/-- The deadline of a call has come: it fails if it is outstanding. Tells whether a call has left
the slot. -/
def lapse (t : Turn) (id : String) : Bool × Turn :=
  t.settle id (.error .timeout)

/-- Hands the slot to the queue if a call has left it. -/
def handOn : Bool × Turn → Turn
  | (true, t) => t.pump
  | (false, t) => t

/-- The deadline of a call has come, and the queue gets the slot. -/
def expire (t : Turn) (id : String) : Turn :=
  handOn (t.lapse id)

/-- Lets the calls of the queue fail because the session closes. -/
def abandonQueue : List QueuedCall → Turn → Turn
  | [], t => { t with session := { t.session with queue := [] } }
  | c :: rest, t => abandonQueue rest (t.tell c.owner (.error .closing))

/-- Lets the outstanding call fail because the session closes, and tells how many there were. -/
def abandonOutstanding (t : Turn) : Nat × Turn :=
  match t.session.slot.takeAny with
  | (some c, slot) =>
    (1, { t with session := { t.session with slot } }.conclude (c.settle t.now (.error .closing)))
  | (none, _) => (0, t)

/-- Begins to close an open session: from now on every new send fails. -/
def beginClose (t : Turn) : Turn :=
  if t.session.isOpen then
    { t with session :=
      { t.session with phase := t.session.phase.advance .closing, abandoned := none } }
  else t

/-- Lets the calls of a closing session fail: the outstanding one and those of the queue. -/
def abandon (t : Turn) : Turn :=
  if t.session.phase = .closing ∧ t.session.abandoned = none then
    let (outstanding, t) := t.abandonOutstanding
    let abandoned := outstanding + t.session.queue.length
    let t := abandonQueue t.session.queue t
    { t with session := { t.session with abandoned := some abandoned } }
  else t

/-- Gives up the transport of a closing session whose calls have failed, and ends its life. -/
def endClose (t : Turn) : Turn :=
  match t.session.phase, t.session.abandoned with
  | .closing, some abandoned =>
    let t := { t with session :=
      { t.session with linked := false, phase := t.session.phase.advance .closed } }
    t.publish (.closed abandoned)
  | _, _ => t

/-- Takes a step of closing the session. Whoever finds the session open takes all three, and
others may do something else in between. -/
def closing (t : Turn) : ClosingStep → Turn
  | .start => t.beginClose
  | .abandon => t.abandon
  | .finish => t.endClose

/-- Closes the session, and gives how many calls were abandoned. Closing a session that is no longer
open does nothing, whether another close has ended it or is about to. -/
def close (t : Turn) : Nat × Turn :=
  if Phase.closing ≤ t.session.phase then (0, t)
  else
    let t := t.beginClose.abandon.endClose
    (t.session.abandoned.getD 0, t)

/-- The transport goes away: nothing is transmitted any more. -/
def unlink (t : Turn) : Turn :=
  { t with session := { t.session with linked := false } }

end Turn

end ChargeLink

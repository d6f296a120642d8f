import ChargeLink.Session.Inbound

/-!
# Stations

A station is a session with what drives it: a clock, the handlers that are
running, and the callers who wait for outcomes. A caller may want a request of a
transaction sent again when it fails for a passing reason. Time moves only when
the station is told to: `Station.run` does all work up to a time, first what
needs no time, then timers in order, each at its own time.
-/

namespace ChargeLink

/-- What a caller is doing. -/
inductive CallerState where
  /-- Waiting for the outcome of a send. -/
  | waiting (ticket : Nat)
  /-- Pausing before the next attempt. -/
  | pausing
  /-- Done. -/
  | done
  deriving DecidableEq, Repr

/-- Someone who asked for a request to be sent. -/
structure Caller where
  number : Nat
  message : Message
  request : Value
  /-- Whether a passing failure is followed by another attempt. -/
  retrying : Bool
  /-- How many attempts have been made. -/
  attempt : Nat
  state : CallerState
  /-- Whether somebody still wants to know the outcome. -/
  listening : Bool

/-- What a timer of a station is for. -/
inductive Wake where
  /-- A caller's pause is over. -/
  | caller (number : Nat)
  /-- The running handler ends. -/
  | handler (answer : Answer)

/-- What a station shows to the outside. -/
inductive Note where
  | sent (text : String)
  | published (event : SessionEvent)
  | entered (handler : Handler) (request : Value)
  | dispatched (action outcome : String)
  | reported (caller : Nat) (outcome : Except CallFailure Value)

/-- A session with its clock, handlers and callers. -/
structure Station where
  session : Session
  timers : Supervisor Expiry
  now : Nat
  /-- How often each handler has been entered. -/
  tally : Tally
  callers : List Caller
  agenda : List (Timer Wake)
  /-- The answer of a handler that took no time. -/
  ready : Option Answer
  /-- Whether somebody still holds the session. -/
  held : Bool
  /-- Whether the session is no more. -/
  gone : Bool
  notes : List Note

namespace Station

/-- Adds a note. -/
def note (s : Station) (n : Note) : Station :=
  { s with notes := s.notes ++ [n] }

/-- Puts something on the agenda after a pause. -/
def later (s : Station) (pause : Nat) (wake : Wake) : Station :=
  let (key, timers) := s.timers.drawKey
  { s with timers, agenda := ⟨key, s.now + pause, wake⟩ :: s.agenda }

/-- Replaces a caller. -/
def putCaller (s : Station) (c : Caller) : Station :=
  { s with callers := s.callers.map fun d => if d.number = c.number then c else d }

/-- A caller is done with an outcome. -/
def report (s : Station) (c : Caller) (outcome : Except CallFailure Value) : Station :=
  let s := s.putCaller { c with state := .done }
  if c.listening then s.note (.reported c.number outcome) else s

/-- The outcome of a send reaches its caller, who may want another attempt. -/
def settled (s : Station) (ticket : Nat) (outcome : Except CallFailure Value) : Station :=
  match s.callers.find? fun c => c.state = .waiting ticket with
  | none => s
  | some c =>
    match outcome with
    | .ok v => s.report c (.ok v)
    | .error failure =>
      if c.retrying then
        match s.session.config.retry.next c.attempt (failure.isTransient && s.session.isOpen) with
        | .giveUp => s.report c (.error failure)
        | .undefined => s.putCaller { c with state := .done }
        | .pause ms => (s.putCaller { c with state := .pausing }).later ms (.caller c.number)
      else s.report c (.error failure)

/-- An inbound call enters a handler: it ends after the time it takes. -/
def entered (s : Station) (h : Handler) (request : Value) : Station :=
  let reaction := h.react (s.tally.count h.action) request
  let s := { s with tally := s.tally.enter h.action }.note (.entered h request)
  if reaction.delay = 0 then { s with ready := some reaction.answer }
  else s.later reaction.delay (.handler reaction.answer)

/-- Takes in one effect of the session. -/
def absorb (s : Station) : Effect → Station
  | .sent text => s.note (.sent text)
  | .settled ticket outcome => s.settled ticket outcome
  | .published event => s.note (.published event)
  | .entered _ h request => s.entered h request
  | .dispatched c result =>
    s.note (.dispatched (s.session.registry.actionLabel c.action) (outcomeLabel result))
  | .accepted _ => s
  | .started _ => s
  | .called .. => s
  | .returned .. => s

/-- The session as it is at work. -/
def turn (s : Station) : Turn :=
  ⟨s.session, s.timers, s.now, []⟩

/-- Takes in what a turn of the session has brought about. -/
def adopt (s : Station) (t : Turn) : Station :=
  t.effects.foldl absorb { s with session := t.session, timers := t.timers }

/-- Lets the session do something. -/
def act (s : Station) (f : Turn → Turn) : Station :=
  s.adopt (f s.turn)

/-- A station around a session that has just been opened. -/
def ofTurn (t : Turn) (tally : Tally) : Station :=
  { session := t.session, timers := t.timers, now := t.now, tally, callers := [], agenda := []
    ready := none, held := true, gone := false, notes := [] : Station }.adopt t

/-- Makes a caller's next attempt. -/
def attempt (s : Station) (c : Caller) : Station :=
  let (ticket, t) := s.turn.send c.message c.request
  (s.putCaller { c with attempt := c.attempt + 1, state := .waiting ticket }).adopt t

/-- Issues a request for a new caller. Only requests of a transaction are worth another attempt. -/
def issue (s : Station) (number : Nat) (m : Message) (request : Value) (retry : Bool) : Station :=
  let c : Caller := ⟨number, m, request, retry && m.transactional request, 0, .done, true⟩
  { s with callers := s.callers ++ [c] }.attempt c

/-- Whether a caller is still at work on a request that may be sent again. -/
def retries (s : Station) : Bool :=
  s.callers.any fun c => c.retrying && c.state != .done

/-- Whether nothing keeps the session alive any more. -/
def isAbandoned (s : Station) : Bool :=
  !s.held && !s.gone && !s.retries && s.session.running.isNone && !s.session.takenUp

/-- The session is no more: calls that wait for an answer fail, their timers stay armed. -/
def vanish (s : Station) : Station :=
  let waiting := s.callers.filter fun c => c.state != .done
  waiting.foldl (fun s c => s.report c (.error .closing)) { s with gone := true }

/-- A timer of the session has come: its call expires, unless the session is no more. -/
def fireExpiry (s : Station) (t : Timer Expiry) : Station :=
  let s := { s with now := max s.now t.deadline, timers := s.timers.abort t.key }
  if s.gone then s else s.act fun turn => turn.expire t.task.call

/-- Something on the agenda has come. -/
def fireWake (s : Station) (t : Timer Wake) : Station :=
  let s := { s with
    now := max s.now t.deadline
    agenda := s.agenda.filter fun u => u.key != t.key }
  match t.task with
  | .handler answer => s.act fun turn => turn.finish answer
  | .caller number =>
    match s.callers.find? fun c => c.number = number with
    | some c => s.attempt c
    | none => s

/-- What a station does next. -/
inductive Work where
  | vanish
  | finish (answer : Answer)
  | serve
  | expiry (t : Timer Expiry)
  | wake (t : Timer Wake)

/-- The work that needs no time, if there is any. -/
def workNow? (s : Station) : Option Work :=
  match s.ready with
  | some answer => some (.finish answer)
  | none =>
    if s.isAbandoned then some .vanish
    else if !s.gone && s.turn.canServe then some .serve
    else none

/-- The timer that comes first, with its place among all timers. -/
def timer? (s : Station) : Option (Nat × Nat × Work) :=
  let expiry := (Supervisor.earliest s.timers.armed).map fun t => (t.deadline, t.key, Work.expiry t)
  let wake := (Supervisor.earliest s.agenda).map fun t => (t.deadline, t.key, Work.wake t)
  match expiry, wake with
  | some (d, k, a), some (e, l, b) =>
    if e < d || (e == d && l < k) then some (e, l, b) else some (d, k, a)
  | some a, none => some a
  | none, b => b

/-- The work to do next, up to the given time. -/
def work? (s : Station) (limit : Nat) : Option Work :=
  match s.workNow? with
  | some w => some w
  | none =>
    match s.timer? with
    | some (deadline, _, w) => if deadline ≤ limit then some w else none
    | none => none

/-- Does a piece of work. -/
def perform (s : Station) : Work → Station
  | .vanish => s.vanish
  | .finish answer => { s with ready := none }.act fun turn => turn.finish answer
  | .serve => s.act Turn.serve
  | .expiry t => s.fireExpiry t
  | .wake t => s.fireWake t

/-- How many attempts may still be made. -/
def attemptsLeft (s : Station) : Nat :=
  s.callers.foldl (fun n c => if c.state = .done then n else n + s.session.config.retry.attempts) 0

/-- A bound on the pieces of work that can come up without new input. -/
def workBound (s : Station) : Nat :=
  8 + 4 * (s.session.inbox.length + s.session.queue.length + s.attemptsLeft) +
    2 * (s.timers.count + s.agenda.length)

/-- Does the work up to the given time, at most `fuel` pieces of it. -/
def runFor (limit : Nat) : (fuel : Nat) → Station → Station
  | 0, s => s
  | fuel + 1, s =>
    match s.work? limit with
    | some w => runFor limit fuel (s.perform w)
    | none => s

/-- Does all work that needs no time to pass. -/
def settle (s : Station) : Station :=
  runFor s.now s.workBound s

/-- Lets time pass, and does all work that comes up. -/
def advance (s : Station) (ms : Nat) : Station :=
  let limit := s.now + ms
  { runFor limit s.workBound s with now := limit }

/-- Lets time pass until no handler is running and no call waits for one, at most `fuel` times. -/
def untilIdleFor : (fuel : Nat) → Station → Station
  | 0, s => s
  | fuel + 1, s =>
    let s := s.settle
    match s.session.running, s.timer? with
    | some _, some (deadline, _, _) => untilIdleFor fuel (s.advance (deadline - s.now))
    | _, _ => s

/-- Lets time pass until no handler is running and no call waits for one. -/
def untilIdle (s : Station) : Station :=
  untilIdleFor s.workBound s

/-- Closes the session, and tells how many calls were abandoned. -/
def close (s : Station) : Nat × Station :=
  let (abandoned, t) := s.turn.close
  (abandoned, s.adopt t)

/-- A caller no longer wants to know the outcome. -/
def forget (s : Station) (number : Nat) : Station :=
  { s with callers := s.callers.map fun c =>
      if c.number = number then { c with listening := false } else c }

/-- The last one who held the session lets go of it. -/
def release (s : Station) : Station :=
  { s with held := false }

/-- The texts among notes. -/
def texts (notes : List Note) : List String :=
  notes.filterMap fun n => match n with
    | .sent text => some text
    | _ => none

/-- Takes the notes made so far. -/
def takeNotes (s : Station) : List Note × Station :=
  (s.notes, { s with notes := [] })

end Station

end ChargeLink

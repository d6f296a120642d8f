import ChargeLink.Session.Outbound

/-!
# Inbound traffic of a session

A text is read as a frame. An answer settles an own call at once; a call waits
in the inbox for the worker, which answers one call at a time, so a handler that
takes long holds up other calls but no answers. The worker asks whether the
session is open when it takes up a call, and answers the call in a second step.
A text that is no frame is refused at once, if it can be told what to refuse and
it does not claim to be an answer.
-/

namespace ChargeLink.Turn

/-- Takes a frame from the peer, and tells whether a call has left the slot. -/
def accept (t : Turn) : Frame → Bool × Turn
  | .call id action payload =>
    if t.session.isOpen && t.timers.hasLoop then
      (false,
        { t with session := { t.session with inbox := t.session.inbox ++ [⟨id, action, payload⟩] } })
    else (false, t)
  | .result id payload => t.answered id (.ok payload)
  | .error id code description details =>
    t.answered id (.error (.refused (ErrorCode.ofWire code) description details))

/-- Refuses a text that is no frame, where that can be done. -/
def refuse (t : Turn) (text : String) (fault : FrameFault) : Turn :=
  match Frame.answerable? text with
  | some id => (t.transmit (.refusal id fault.code t.session.version Json.empty)).2
  | none => t

/-- Hears a text from the peer, and tells whether a call has left the slot. -/
def hear (t : Turn) (text : String) : Bool × Turn :=
  match t.session.codec.decode text with
  | .ok f => t.accept f
  | .error fault => (false, t.refuse text fault)

/-- Takes a text from the peer, and hands on the slot if a call has left it. -/
def receive (t : Turn) (text : String) : Turn :=
  handOn (t.hear text)

/-- Answers an inbound call. -/
def reply (t : Turn) (c : InboundCall) (result : Except DispatchFault Json) : Turn :=
  let r := t.session.registry
  let t := t.emit (.dispatched c result)
  (t.transmit (r.reply c.id result)).2

/-- Whether the worker is idle and a call waits for it. -/
def canServe (t : Turn) : Bool :=
  t.session.running.isNone && !t.session.inbox.isEmpty

/-- The idle worker looks at the next call: it takes it up if the session is open, and else drops
it. -/
def takeUp (t : Turn) : Turn :=
  match t.session.running, t.session.takenUp, t.session.inbox with
  | none, false, _ :: rest =>
    if t.session.isOpen then { t with session := { t.session with takenUp := true } }
    else { t with session := { t.session with inbox := rest } }
  | _, _, _ => t

/-- The worker answers the call that it has taken up: it refuses it, or enters its handler. Whether
the session is still open is not asked again. -/
def handle (t : Turn) : Turn :=
  match t.session.running, t.session.takenUp, t.session.inbox with
  | none, true, c :: rest =>
    let t := { t with session := { t.session with inbox := rest, takenUp := false } }
    match t.session.registry.accept c.action c.payload with
    | .error fault => t.reply c (.error fault)
    | .ok (h, request) =>
      { t with session := { t.session with running := some (c, h) } }.emit (.entered c h request)
  | _, _, _ => t

/-- The idle worker takes the next call and answers it, with nothing else in between. A session that
is no longer open answers nothing. -/
def serve (t : Turn) : Turn :=
  t.takeUp.handle

/-- The running handler ends. -/
def finish (t : Turn) (answer : Answer) : Turn :=
  match t.session.running with
  | some (c, h) =>
    ({ t with session := { t.session with running := none } }.emit (.returned c answer)).reply c
      (Registry.conclude h.message answer)
  | none => t

end ChargeLink.Turn

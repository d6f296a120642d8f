import ChargeLink.Proofs.Session.Chronicle

/-!
# Small steps

Whatever a session does is a sequence of small steps, each of which does one
thing: a send is turned away, a call is transmitted, an answer settles the
outstanding call, and so on. Between two of them a call may be in hand, taken
from the queue or just accepted, and about to start: a `Desk`.

Small steps are those of own calls (`Own`), those of what the peer asks
(`Inbound`) and the loss of the transport. `Ambient` is what goes on around the
session.
-/

namespace ChargeLink

open Relation

/-- A request that keeps its rules and is encoded as this payload. -/
def Message.Encodes (m : Message) (v : Value) (p : Json) : Prop :=
  m.request.validate v = none ∧ m.request.encode v = .ok p

/-- The id that a frame answers, with the outcome it brings; a call answers none. -/
def Frame.answer? : Frame → Option (String × RawOutcome)
  | .call .. => none
  | .result id payload => some (id, .ok payload)
  | .error id code description details =>
    some (id, .error (.refused (ErrorCode.ofWire code) description details))

/-- An answer brings a confirmation, one that has a fault, or the peer's refusal. -/
theorem Frame.outcome_cases {f : Frame} {id : String} {raw : RawOutcome}
    (answers : f.answer? = some (id, raw)) (o : Owner) :
    (∃ v, o.outcome raw = .ok v) ∨
      (∃ fault, o.outcome raw = .error (.badConfirmation fault)) ∨
      ∃ code description details, o.outcome raw = .error (.refused code description details) := by
  cases f with
  | call => cases answers
  | result id payload =>
    cases answers
    unfold Owner.outcome
    dsimp only
    split
    · exact .inr (.inl ⟨_, rfl⟩)
    · split
      · exact .inr (.inl ⟨_, rfl⟩)
      · exact .inl ⟨_, rfl⟩
  | error => cases answers; exact .inr (.inr ⟨_, _, _, rfl⟩)

namespace Session

/-- Whether a new call would start at once. -/
def Idle (s : Session) : Prop :=
  s.queue = [] ∧ s.slot = .empty

/-- Whether the queue takes one more call. -/
def HasRoom (s : Session) : Prop :=
  s.config.busyPolicy = .queue ∧ s.queue.length < s.config.queueCapacity

/-- The call of the next ticket. -/
def nextCall (s : Session) (m : Message) (p : Json) : QueuedCall :=
  ⟨⟨s.issued, m.confirmation⟩, m.action, p⟩

/-- The reasons to turn a send away. -/
inductive TurnsAway (s : Session) (m : Message) (v : Value) : CallFailure → Prop
  | invalid {fault} (h : m.request.validate v = some fault) : TurnsAway s m v (.badRequest fault)
  | unencodable {fault} (valid : m.request.validate v = none)
      (h : m.request.encode v = .error fault) : TurnsAway s m v (.badRequest fault)
  | ended {p} (fit : m.Encodes v p) (h : s.phase ≠ .opened) : TurnsAway s m v .closing
  | busy {p} (fit : m.Encodes v p) (h : s.phase = .opened) (taken : ¬s.Idle)
      (full : ¬s.HasRoom) : TurnsAway s m v .busy

/-- The owners of the calls that wait for an answer or for the slot, the oldest first. -/
def waiting (s : Session) : List Owner :=
  s.slot.slot.toList.map (·.owner) ++ s.queue.map (·.owner)

/-- What letting the calls of a closing session fail brings about. -/
def abandonment (s : Session) : List Effect :=
  s.waiting.map fun o => .settled o.ticket (.error .closing)

/-- The reply to an inbound call, if it can still be transmitted. -/
def replies (s : Session) (call : InboundCall) (result : Except DispatchFault Json) : List Effect :=
  if s.linked then [.sent (s.codec.encode (s.registry.reply call.id result))] else []

/-- The ticket of the outstanding call. -/
def outstanding (s : Session) : List ℕ :=
  s.slot.slot.toList.map (·.owner.ticket)

/-- The tickets of the queued calls. -/
def queued (s : Session) : List ℕ :=
  s.queue.map (·.owner.ticket)

theorem tickets_waiting (s : Session) :
    s.waiting.map (·.ticket) = s.outstanding ++ s.queued := by
  simp [waiting, outstanding, queued, Function.comp_def]

theorem outstanding_of_slot {s : Session} {call : PendingCall ℕ Owner}
    (slot : s.slot = ⟨some call⟩) : s.outstanding = [call.owner.ticket] := by
  simp [outstanding, slot]

theorem outstanding_of_empty {s : Session} (slot : s.slot = .empty) : s.outstanding = [] := by
  simp [outstanding, slot, PendingTable.empty]

end Session

/-! ## What the log says of replies and of closing -/

namespace Log

variable {α : Type} {tells : ℕ × Effect → Option α} (s : Session) (time : ℕ)

/-- A view that tells nothing of texts tells nothing of a reply. -/
@[simp] theorem view_replies (silent : ∀ text, tells (time, .sent text) = none) (call : InboundCall)
    (result : Except DispatchFault Json) :
    view tells ((s.replies call result).map fun e => (time, e)) = [] := by
  unfold Session.replies
  split <;> simp [silent]

/-- A view that tells nothing of outcomes tells nothing of the calls that fail. -/
@[simp] theorem view_abandonment (silent : ∀ k o, tells (time, .settled k o) = none) :
    view tells (s.abandonment.map fun e => (time, e)) = [] := by
  simp [view, Session.abandonment, silent]

@[simp] theorem settlements_abandonment :
    settlements (s.abandonment.map fun e => (time, e)) =
      (s.outstanding ++ s.queued).map (·, time, .error .closing) := by
  rw [← s.tickets_waiting]
  simp [view, Session.abandonment, List.filterMap_map, Function.comp_def]

@[simp] theorem settled_abandonment : settled (s.abandonment.map fun e => (time, e)) =
    s.outstanding ++ s.queued := by
  rw [← s.tickets_waiting]
  simp [view, Session.abandonment, List.filterMap_map, Function.comp_def]

end Log

/-! ## Desks -/

/-- The timers without that of a call. -/
def Supervisor.release (s : Supervisor Expiry) (call : PendingCall ℕ Owner) : Supervisor Expiry :=
  match call.timer with
  | some key => s.abort key
  | none => s

namespace Turn

/-- When a call that starts now has to be answered. -/
def deadline (t : Turn) : ℕ :=
  t.now + t.session.config.callTimeout

/-- The timers with that of a call that starts now. -/
def armed (t : Turn) : Supervisor Expiry :=
  { t.timers with
    nextKey := t.timers.nextKey + 1
    armed := ⟨t.timers.nextKey, t.deadline, ⟨t.session.number, t.session.nextId⟩⟩ ::
      t.timers.armed }

/-- A call as it is outstanding once it has started. -/
def pending (t : Turn) (q : QueuedCall) : PendingCall ℕ Owner :=
  ⟨t.session.nextId, q.action, t.now, t.deadline, q.owner, some t.timers.nextKey⟩

end Turn

namespace Chronicle

/-- Session and timers change, and something is brought about. -/
def becomes (c : Chronicle) (s : Session) (timers : Supervisor Expiry) (es : List Effect) :
    Chronicle :=
  { c with turn := { c.turn with session := s, timers, effects := c.turn.effects ++ es } }

/-- One more request was to be sent. -/
def ask (c : Chronicle) (m : Message) (v : Value) : Chronicle :=
  { c with asked := c.asked ++ [(m, v)] }

/-- One more text was heard. -/
def hears (c : Chronicle) (text : String) : Chronicle :=
  { c with heard := c.heard ++ [text] }

/-- The slot has to be handed on so many times. -/
def owing (c : Chronicle) (n : ℕ) : Chronicle :=
  { c with owed := n }

@[simp] theorem session_becomes (c : Chronicle) (s : Session) (timers : Supervisor Expiry)
    (es : List Effect) : (c.becomes s timers es).session = s := rfl

@[simp] theorem session_ask (c : Chronicle) (m : Message) (v : Value) :
    (c.ask m v).session = c.session := rfl

@[simp] theorem session_hears (c : Chronicle) (text : String) :
    (c.hears text).session = c.session := rfl

@[simp] theorem session_owing (c : Chronicle) (n : ℕ) : (c.owing n).session = c.session := rfl

@[simp] theorem now_becomes (c : Chronicle) (s : Session) (timers : Supervisor Expiry)
    (es : List Effect) : (c.becomes s timers es).now = c.now := rfl

@[simp] theorem now_ask (c : Chronicle) (m : Message) (v : Value) : (c.ask m v).now = c.now := rfl

@[simp] theorem now_hears (c : Chronicle) (text : String) : (c.hears text).now = c.now := rfl

@[simp] theorem now_owing (c : Chronicle) (n : ℕ) : (c.owing n).now = c.now := rfl

theorem log_becomes (c : Chronicle) (s : Session) (timers : Supervisor Expiry) (es : List Effect) :
    (c.becomes s timers es).log = c.log ++ es.map fun e => (c.now, e) := by
  simp [log, becomes]

@[simp] theorem log_ask (c : Chronicle) (m : Message) (v : Value) : (c.ask m v).log = c.log := rfl

@[simp] theorem log_hears (c : Chronicle) (text : String) : (c.hears text).log = c.log := rfl

@[simp] theorem log_owing (c : Chronicle) (n : ℕ) : (c.owing n).log = c.log := rfl

end Chronicle

/-- A chronicle with the call that is about to start, if there is one. -/
structure Desk where
  chronicle : Chronicle
  hand : Option QueuedCall

/-- The small steps of own calls. -/
inductive Own : Desk → Desk → Prop
  | turnAway {c m v f} (why : c.session.TurnsAway m v f) :
      Own ⟨c, none⟩ ⟨(c.becomes { c.session with issued := c.session.issued + 1 } c.timers
        [.settled c.session.issued (.error f)]).ask m v, none⟩
  | enqueue {c m v p} (fit : m.Encodes v p) (isOpen : c.session.phase = .opened)
      (taken : ¬c.session.Idle) (room : c.session.HasRoom) :
      Own ⟨c, none⟩ ⟨(c.becomes
        { c.session with
          issued := c.session.issued + 1
          queue := c.session.queue ++ [c.session.nextCall m p] }
        c.timers [.accepted c.session.issued]).ask m v, none⟩
  | take {c m v p} (fit : m.Encodes v p) (isOpen : c.session.phase = .opened)
      (idle : c.session.Idle) :
      Own ⟨c, none⟩ ⟨(c.becomes { c.session with issued := c.session.issued + 1 } c.timers
        [.accepted c.session.issued]).ask m v, some (c.session.nextCall m p)⟩
  | takeNext {c q rest} (isOpen : c.session.phase = .opened) (free : c.session.slot = .empty)
      (queue : c.session.queue = q :: rest) :
      Own ⟨c, none⟩ ⟨c.becomes { c.session with queue := rest } c.timers [], some q⟩
  | untimed {c q} (loop : c.timers.hasLoop = false) :
      Own ⟨c, some q⟩ ⟨c.becomes c.session c.timers [.started q.owner.ticket,
        .settled q.owner.ticket (.error (.transport noLoopMessage))], none⟩
  | transmit {c q} (loop : c.timers.hasLoop = true) (linked : c.session.linked = true) :
      Own ⟨c, some q⟩ ⟨c.becomes
        { c.session with
          slot := ⟨some (c.turn.pending q)⟩
          transmitted := c.session.transmitted + 1 }
        c.turn.armed [.started q.owner.ticket,
          .sent (c.session.codec.encode (.call c.session.nextId q.action q.payload)),
          .called q.owner.ticket c.session.nextId], none⟩
  | miss {c q} (loop : c.timers.hasLoop = true) (unlinked : c.session.linked = false) :
      Own ⟨c, some q⟩ ⟨c.becomes { c.session with slot := .empty }
        (c.turn.armed.abort c.timers.nextKey) [.started q.owner.ticket,
          .settled q.owner.ticket (.error (.transport "outbound channel closed"))], none⟩
  | answer {c text f id raw call} (decodes : c.session.codec.decode text = .ok f)
      (answers : f.answer? = some (id, raw)) (slot : c.session.slot = ⟨some call⟩)
      (same : call.id = id) :
      Own ⟨c, none⟩ ⟨((c.becomes { c.session with slot := .empty } (c.timers.release call)
        [.settled call.owner.ticket (call.owner.outcome raw)]).hears text).owing (c.owed + 1), none⟩
  | lapse {c timer call} (armed : timer ∈ c.timers.ofSession c.session.number)
      (due : timer.deadline ≤ c.now) (slot : c.session.slot = ⟨some call⟩)
      (same : call.id = timer.task.call) :
      Own ⟨c, none⟩ ⟨(c.becomes { c.session with slot := .empty }
        ((c.timers.abort timer.key).release call)
        [.settled call.owner.ticket (.error .timeout)]).owing (c.owed + 1), none⟩
  | stale {c timer} (armed : timer ∈ c.timers.ofSession c.session.number)
      (due : timer.deadline ≤ c.now) (other : c.session.slot.outstandingId ≠ some timer.task.call) :
      Own ⟨c, none⟩ ⟨c.becomes c.session (c.timers.abort timer.key) [], none⟩
  | handedOn {c} (owed : 0 < c.owed)
      (done : ¬(c.session.phase = .opened ∧ c.session.slot = .empty ∧ c.session.queue ≠ [])) :
      Own ⟨c, none⟩ ⟨c.owing (c.owed - 1), none⟩
  | beginClose {c} (isOpen : c.session.phase = .opened) :
      Own ⟨c, none⟩ ⟨c.becomes { c.session with phase := .closing, abandoned := none } c.timers [],
        none⟩
  | abandon {c} (closing : c.session.phase = .closing) (first : c.session.abandoned = none) :
      Own ⟨c, none⟩ ⟨c.becomes
        { c.session with
          slot := .empty
          queue := []
          abandoned := some c.session.waiting.length }
        (c.session.slot.slot.elim c.timers c.timers.release) c.session.abandonment, none⟩
  | endClose {c n} (closing : c.session.phase = .closing) (done : c.session.abandoned = some n) :
      Own ⟨c, none⟩ ⟨c.becomes { c.session with linked := false, phase := .closed } c.timers
        [.published (c.session.event (.closed n))], none⟩

/-- The small steps of what the peer asks. -/
inductive Inbound : Chronicle → Chronicle → Prop
  | unmatched {c text f id raw} (decodes : c.session.codec.decode text = .ok f)
      (answers : f.answer? = some (id, raw)) (other : c.session.slot.outstandingId ≠ some id) :
      Inbound c ((c.becomes c.session c.timers
        [.published (c.session.event (.unmatched id))]).hears text)
  | buffer {c text id action payload}
      (decodes : c.session.codec.decode text = .ok (.call id action payload))
      (isOpen : c.session.phase = .opened) (loop : c.timers.hasLoop = true) :
      Inbound c ((c.becomes
        { c.session with inbox := c.session.inbox ++ [⟨id, action, payload⟩] }
        c.timers []).hears text)
  | ignore {c text id action payload}
      (decodes : c.session.codec.decode text = .ok (.call id action payload))
      (idle : ¬(c.session.phase = .opened ∧ c.timers.hasLoop = true)) : Inbound c (c.hears text)
  | refuse {c text fault id} (fails : c.session.codec.decode text = .error fault)
      (answerable : Frame.answerable? text = some id) (linked : c.session.linked = true) :
      Inbound c ((c.becomes c.session c.timers [.sent (c.session.codec.encode
        (.refusal id fault.code c.session.version Json.empty))]).hears text)
  | drop {c text fault} (fails : c.session.codec.decode text = .error fault)
      (silent : Frame.answerable? text = none ∨ c.session.linked = false) : Inbound c (c.hears text)
  | skip {c call rest} (idle : c.session.running = none) (left : c.session.takenUp = false)
      (inbox : c.session.inbox = call :: rest) (ended : c.session.phase ≠ .opened) :
      Inbound c (c.becomes { c.session with inbox := rest } c.timers [])
  | takeUp {c call rest} (idle : c.session.running = none) (left : c.session.takenUp = false)
      (inbox : c.session.inbox = call :: rest) (isOpen : c.session.phase = .opened) :
      Inbound c (c.becomes { c.session with takenUp := true } c.timers [])
  | decline {c call rest fault} (idle : c.session.running = none) (taken : c.session.takenUp = true)
      (inbox : c.session.inbox = call :: rest)
      (fails : c.session.registry.accept call.action call.payload = .error fault) :
      Inbound c (c.becomes { c.session with inbox := rest, takenUp := false } c.timers
        (.dispatched call (.error fault) :: c.session.replies call (.error fault)))
  | enter {c call rest h request} (idle : c.session.running = none)
      (taken : c.session.takenUp = true) (inbox : c.session.inbox = call :: rest)
      (accepts : c.session.registry.accept call.action call.payload = .ok (h, request)) :
      Inbound c (c.becomes
        { c.session with inbox := rest, takenUp := false, running := some (call, h) } c.timers
        [.entered call h request])
  | leave {c call h} (answer : Answer) (running : c.session.running = some (call, h)) :
      Inbound c (c.becomes { c.session with running := none } c.timers
        (.returned call answer :: .dispatched call (Registry.conclude h.message answer) ::
          c.session.replies call (Registry.conclude h.message answer)))

/-- What is brought about for own calls. -/
def Effect.isOwn : Effect → Bool
  | .accepted _ | .started _ | .called .. | .settled .. => true
  | _ => false

/-- What the peer asks brings about nothing for own calls. -/
theorem Inbound.log {c d : Chronicle} (h : Inbound c d) : ∃ es : List Effect,
    (∀ e ∈ es, e.isOwn = false) ∧ d.log = c.log ++ es.map fun e => (c.now, e) := by
  have reply : ∀ call result, ∀ e ∈ c.session.replies call result, e.isOwn = false := by
    intro call result e he
    unfold Session.replies at he
    split at he
    · rw [List.mem_singleton.1 he]
      rfl
    · cases he
  cases h with
  | unmatched | refuse =>
    refine ⟨[_], ?_, (Chronicle.log_hears ..).trans (Chronicle.log_becomes ..)⟩
    simp [Effect.isOwn]
  | enter =>
    refine ⟨[_], ?_, Chronicle.log_becomes ..⟩
    simp [Effect.isOwn]
  | buffer => exact ⟨[], by simp, (Chronicle.log_hears ..).trans (Chronicle.log_becomes ..)⟩
  | skip | takeUp => exact ⟨[], by simp, Chronicle.log_becomes ..⟩
  | ignore | drop => exact ⟨[], by simp, by simp⟩
  | decline =>
    exact ⟨_, List.forall_mem_cons.2 ⟨rfl, reply _ _⟩, Chronicle.log_becomes ..⟩
  | leave =>
    exact ⟨_, List.forall_mem_cons.2 ⟨rfl, List.forall_mem_cons.2 ⟨rfl, reply _ _⟩⟩,
      Chronicle.log_becomes ..⟩

/-- What the peer asks leaves the record of own calls alone. -/
theorem Inbound.ownLog {c d : Chronicle} (h : Inbound c d) :
    d.log.acceptances = c.log.acceptances ∧ d.log.starts = c.log.starts ∧
      d.log.calls = c.log.calls ∧ d.log.settlements = c.log.settlements := by
  obtain ⟨es, foreign, log⟩ := h.log
  rw [log]
  refine ⟨?_, ?_, ?_, ?_⟩ <;>
    simp only [Log.view_append, List.append_right_eq_self] <;>
    refine List.filterMap_eq_nil_iff.2 ?_ <;>
    · intro x hx
      obtain ⟨e, he, rfl⟩ := List.mem_map.1 hx
      have := foreign e he
      cases e <;> simp_all [Effect.isOwn]

/-- Two chronicles agree in what concerns own calls. -/
structure SameOwn (c d : Chronicle) : Prop where
  timers : d.timers = c.timers
  now : d.now = c.now
  owed : d.owed = c.owed
  asked : d.asked = c.asked
  number : d.session.number = c.session.number
  config : d.session.config = c.session.config
  phase : d.session.phase = c.session.phase
  abandoned : d.session.abandoned = c.session.abandoned
  issued : d.session.issued = c.session.issued
  slot : d.session.slot = c.session.slot
  queue : d.session.queue = c.session.queue
  acceptances : d.log.acceptances = c.log.acceptances
  starts : d.log.starts = c.log.starts
  calls : d.log.calls = c.log.calls
  settlements : d.log.settlements = c.log.settlements

theorem SameOwn.settled {c d : Chronicle} (h : SameOwn c d) : d.log.settled = c.log.settled := by
  rw [← Log.map_settlements, h.settlements, Log.map_settlements]

/-- What the peer asks leaves the own calls alone. -/
theorem Inbound.same {c d : Chronicle} (h : Inbound c d) : SameOwn c d := by
  obtain ⟨acceptances, starts, calls, settlements⟩ := h.ownLog
  cases h <;>
    exact ⟨rfl, rfl, rfl, rfl, rfl, rfl, rfl, rfl, rfl, rfl, rfl, acceptances, starts, calls,
      settlements⟩

/-- A lost transport leaves the own calls alone. -/
theorem SameOwn.unlink (c : Chronicle) : SameOwn c c.unlink :=
  ⟨rfl, rfl, rfl, rfl, rfl, rfl, rfl, rfl, rfl, rfl, rfl, rfl, rfl, rfl, rfl⟩

/-- The small steps of a session. -/
inductive Small : Desk → Desk → Prop
  | own {d e} : Own d e → Small d e
  | inbound {c d} : Inbound c d → Small ⟨c, none⟩ ⟨d, none⟩
  | unlink {c} : Small ⟨c, none⟩ ⟨c.unlink, none⟩

/-- What happens around a session: other sessions use the timers, and time passes. -/
inductive Ambient : Chronicle → Chronicle → Prop
  | share {c} (timers : Supervisor Expiry) (keyed : timers.Keyed)
      (loop : timers.hasLoop = c.timers.hasLoop)
      (own : timers.ofSession c.session.number = c.timers.ofSession c.session.number) :
      Ambient c (c.share timers)
  | wait {c} (ms : ℕ) (handedOn : c.owed = 0)
      (punctual : ∀ t ∈ c.timers.ofSession c.session.number, c.now + ms ≤ t.deadline) :
      Ambient c (c.wait ms)

/-- As time passes, what was brought about becomes the past. -/
theorem Ambient.log {c d : Chronicle} (h : Ambient c d) : d.log = c.log := by
  cases h with
  | share => rfl
  | wait => exact List.append_nil _

/-- What happens around a session leaves it alone. -/
theorem Ambient.session {c d : Chronicle} (h : Ambient c d) : d.session = c.session := by
  cases h <;> rfl

theorem Ambient.asked {c d : Chronicle} (h : Ambient c d) : d.asked = c.asked := by
  cases h <;> rfl

end ChargeLink

import ChargeLink.Proofs.Session.Desk
import Mathlib.Tactic.Convert
import Mathlib.Tactic.Set

/-!
# Steps are sequences of small steps

* `Step.small`: every step of a chronicle is a sequence of small steps, with
  nothing in hand before and after it, or goes on around the session.
* `send_owns`, `hear_owns`, `ring_owns`, `pump_owns`: what concerns own calls takes small
  steps of own calls only, and does not close the session.
* `closing_own`: a step of closing is a small step, or none.
* `hear_inbound`, `takeUp_inbound`, `handle_inbound`, `finish_inbound`: what the peer
  asks takes no such step.
* `Reachable.desk`: what holds of every desk holds of every chronicle.
-/

namespace ChargeLink

open Relation

/-- The desk `e` is reached from `d` by small steps. -/
abbrev Smalls : Desk → Desk → Prop :=
  ReflTransGen Small

/-- The desk `e` is reached from `d` by small steps of own calls, none of which closes the
session. -/
abbrev Owns : Desk → Desk → Prop :=
  ReflTransGen fun d e => Own d e ∧ e.chronicle.session.phase = d.chronicle.session.phase ∧
    e.chronicle.session.abandoned = d.chronicle.session.abandoned

theorem Owns.smalls {d e : Desk} (h : Owns d e) : Smalls d e :=
  ReflTransGen.mono (fun _ _ step => Small.own step.1) _ _ h

variable {c : Chronicle}

/-! ## What the operations of a session do -/

/-- A send is turned away, starts at once or waits in the queue. -/
theorem Session.turnsAway_or (s : Session) (m : Message) (v : Value) :
    (∃ f, s.TurnsAway m v f) ∨
      ∃ p, m.Encodes v p ∧ s.phase = .opened ∧ (s.Idle ∨ ¬s.Idle ∧ s.HasRoom) := by
  cases valid : m.request.validate v with
  | some fault => exact .inl ⟨_, .invalid valid⟩
  | none =>
    cases encoded : m.request.encode v with
    | error fault => exact .inl ⟨_, .unencodable valid encoded⟩
    | ok p =>
      have fit : m.Encodes v p := ⟨valid, encoded⟩
      by_cases isOpen : s.phase = .opened
      · by_cases idle : s.Idle
        · exact .inr ⟨p, fit, isOpen, .inl idle⟩
        · by_cases room : s.HasRoom
          · exact .inr ⟨p, fit, isOpen, .inr ⟨idle, room⟩⟩
          · exact .inl ⟨_, .busy fit isOpen idle room⟩
      · exact .inl ⟨_, .ended fit isOpen⟩

namespace Turn

variable {t : Turn} {q : QueuedCall} {call : PendingCall ℕ Owner} {id : String} {raw : RawOutcome}
  {m : Message} {v : Value} {p : Json}

/-- A send that is turned away takes a ticket, and fails at once. -/
theorem send_away {f : CallFailure} (why : t.session.TurnsAway m v f) :
    (t.send m v).2 = { t with
      session := { t.session with issued := t.session.issued + 1 }
      effects := t.effects ++ [.settled t.session.issued (.error f)] } := by
  cases why with
  | invalid invalid => simp [send, invalid, tell, emit, Owner.outcome]
  | unencodable valid fails => simp [send, valid, fails, tell, emit, Owner.outcome]
  | ended fit ended =>
    obtain ⟨valid, encoded⟩ := fit
    simp [send, valid, encoded, submit, Session.isOpen, ended, tell, emit, Owner.outcome]
  | busy fit isOpen taken full =>
    obtain ⟨valid, encoded⟩ := fit
    simp only [Session.Idle, ← PendingTable.isFree_iff] at taken
    simp only [Session.HasRoom] at full
    simp [send, valid, encoded, submit, Session.isOpen, isOpen, taken, full, tell, emit,
      Owner.outcome]

/-- A call that finds the slot free and nobody waiting is accepted, and starts. -/
theorem send_idle (fit : m.Encodes v p) (isOpen : t.session.phase = .opened)
    (idle : t.session.Idle) :
    (t.send m v).2 = start { t with
      session := { t.session with issued := t.session.issued + 1 }
      effects := t.effects ++ [.accepted t.session.issued] } (t.session.nextCall m p) := by
  obtain ⟨valid, encoded⟩ := fit
  obtain ⟨queue, slot⟩ := idle
  simp [send, valid, encoded, submit, Session.isOpen, isOpen, queue, slot, emit, Session.nextCall]

/-- Else it is accepted at the end of the queue, if there is room. -/
theorem send_queued (fit : m.Encodes v p) (isOpen : t.session.phase = .opened)
    (taken : ¬t.session.Idle) (room : t.session.HasRoom) :
    (t.send m v).2 = { t with
      session :=
        { t.session with
          issued := t.session.issued + 1
          queue := t.session.queue ++ [t.session.nextCall m p] }
      effects := t.effects ++ [.accepted t.session.issued] } := by
  obtain ⟨valid, encoded⟩ := fit
  simp only [Session.Idle, ← PendingTable.isFree_iff] at taken
  simp only [Session.HasRoom] at room
  simp [send, valid, encoded, submit, Session.isOpen, isOpen, taken, room, emit, Session.nextCall]

/-- A call that gets no timer fails at once. -/
theorem start_untimed (loop : t.timers.hasLoop = false) :
    t.start q = { t with effects := t.effects ++ [.started q.owner.ticket,
      .settled q.owner.ticket (.error (.transport noLoopMessage))] } := by
  simp [start, emit, tell, Supervisor.schedule, loop, Owner.outcome]

/-- A call that is transmitted holds the slot and has a timer. -/
theorem start_linked (loop : t.timers.hasLoop = true) (free : t.session.slot = .empty)
    (linked : t.session.linked = true) :
    t.start q = { t with
      session :=
        { t.session with
          slot := ⟨some (t.pending q)⟩
          transmitted := t.session.transmitted + 1 }
      timers := t.armed
      effects := t.effects ++ [.started q.owner.ticket,
        .sent (t.session.codec.encode (.call t.session.nextId q.action q.payload)),
        .called q.owner.ticket t.session.nextId] } := by
  simp [start, emit, Supervisor.schedule, loop, PendingTable.reserve?, PendingTable.isFree, free,
    PendingTable.empty, transmit, linked, pending, armed, deadline, Session.nextId]

/-- A call that is not transmitted fails at once, and its timer is disarmed. -/
theorem start_unlinked (loop : t.timers.hasLoop = true) (free : t.session.slot = .empty)
    (unlinked : t.session.linked = false) :
    t.start q = { t with
      session := { t.session with slot := .empty }
      timers := t.armed.abort t.timers.nextKey
      effects := t.effects ++ [.started q.owner.ticket,
        .settled q.owner.ticket (.error (.transport "outbound channel closed"))] } := by
  simp [start, emit, Supervisor.schedule, loop, PendingTable.reserve?, PendingTable.isFree, free,
    PendingTable.empty, transmit, unlinked, conclude, armed, deadline, Session.nextId,
    PendingTable.take, PendingCall.settle, tell, Owner.outcome]

/-- The first of the queue starts in the free slot. -/
theorem pumpFrom_ready (isOpen : t.session.phase = .opened) (free : t.session.slot = .empty)
    (rest : List QueuedCall) : pumpFrom (q :: rest) t =
      pumpFrom rest (start { t with session := { t.session with queue := rest } } q) := by
  simp [pumpFrom, Session.isOpen, isOpen, free]

/-- With the slot taken, or after the end of the session, the queue waits. -/
theorem pumpFrom_waits (busy : ¬(t.session.phase = .opened ∧ t.session.slot = .empty))
    (q : List QueuedCall) : pumpFrom q t = { t with session := { t.session with queue := q } } := by
  cases q with
  | nil => rfl
  | cons x rest =>
    rw [← PendingTable.isFree_iff] at busy
    simp [pumpFrom, Session.isOpen, busy]

/-- Settling the outstanding call empties the slot and disarms the call's timer. -/
theorem settle_of_eq (slot : t.session.slot = ⟨some call⟩) (same : call.id = id) :
    t.settle id raw = (true, { t with
      session := { t.session with slot := .empty }
      timers := t.timers.release call
      effects := t.effects ++ [.settled call.owner.ticket (call.owner.outcome raw)] }) := by
  subst same
  cases h : call.timer <;>
    simp [settle, slot, PendingTable.settle, PendingTable.take, PendingTable.empty,
      PendingCall.settle, conclude, tell, emit, Supervisor.release, h]

/-- An id that is not outstanding settles nothing. -/
theorem settle_of_ne (other : t.session.slot.outstandingId ≠ some id) :
    t.settle id raw = (false, t) := by
  simp [settle, PendingTable.settle, PendingTable.take_of_ne other]

/-- An open session begins to close, with no call abandoned yet. -/
theorem beginClose_of_open (isOpen : t.session.phase = .opened) :
    t.beginClose =
      { t with session := { t.session with phase := .closing, abandoned := none } } := by
  have closing : Phase.opened.advance .closing = .closing := by decide
  simp [beginClose, Session.isOpen, isOpen, closing]

/-- A session that is not open is not closed again. -/
theorem beginClose_of_not_open (ended : t.session.phase ≠ .opened) : t.beginClose = t := by
  simp [beginClose, Session.isOpen, ended]

/-- The outstanding call and those of the queue fail, one after the other. -/
theorem abandon_of_closing (closing : t.session.phase = .closing)
    (first : t.session.abandoned = none) : t.abandon = { t with
      session :=
        { t.session with
          slot := .empty
          queue := []
          abandoned := some t.session.waiting.length }
      timers := t.session.slot.slot.elim t.timers t.timers.release
      effects := t.effects ++ t.session.abandonment } := by
  have queued : ∀ (q : List QueuedCall) (u : Turn), abandonQueue q u = { u with
      session := { u.session with queue := [] }
      effects := u.effects ++ q.map fun x => .settled x.owner.ticket (.error .closing) } := by
    intro q
    induction q with
    | nil => intro u; simp [abandonQueue]
    | cons x r ih => intro u; rw [abandonQueue, ih]; simp [tell, emit, Owner.outcome]
  cases h : t.session.slot.slot with
  | none =>
    have slot : t.session.slot = .empty := by rw [PendingTable.empty, ← h]
    simp [abandon, closing, first, abandonOutstanding, PendingTable.takeAny, slot,
      PendingTable.empty, queued, Session.abandonment, Session.waiting, Function.comp_def]
  | some call =>
    have slot : t.session.slot = ⟨some call⟩ := by rw [← h]
    cases timer : call.timer <;>
      simp [abandon, closing, first, abandonOutstanding, PendingTable.takeAny, slot,
        PendingTable.empty, queued, Session.abandonment, Session.waiting, PendingCall.settle,
        conclude, tell, emit, Owner.outcome, Supervisor.release, timer, Nat.add_comm,
        Function.comp_def]

/-- Calls fail once, and only if the session closes. -/
theorem abandon_idle (idle : ¬(t.session.phase = .closing ∧ t.session.abandoned = none)) :
    t.abandon = t := by
  rw [abandon, if_neg idle]

/-- A closing session whose calls have failed is closed without a transport. -/
theorem endClose_of_abandoned {n : ℕ} (closing : t.session.phase = .closing)
    (done : t.session.abandoned = some n) : t.endClose = { t with
      session := { t.session with linked := false, phase := .closed }
      effects := t.effects ++ [.published (t.session.event (.closed n))] } := by
  have closed : Phase.closing.advance .closed = .closed := by decide
  simp [endClose, closing, done, closed, publish, emit, Session.event]

/-- As long as its calls have not failed, a session is not closed. -/
theorem endClose_idle (idle : ¬(t.session.phase = .closing ∧ t.session.abandoned.isSome)) :
    t.endClose = t := by
  unfold endClose
  split
  · rename_i n closing done
    exact absurd ⟨closing, by rw [done]; rfl⟩ idle
  · rfl

/-- What closing an open session comes to. -/
theorem close_of_open (isOpen : t.session.phase = .opened) :
    t.close = (t.session.waiting.length, { t with
      session :=
        { t.session with
          slot := .empty
          queue := []
          abandoned := some t.session.waiting.length
          linked := false
          phase := .closed }
      timers := t.session.slot.slot.elim t.timers t.timers.release
      effects := t.effects ++ t.session.abandonment ++
        [.published (t.session.event (.closed t.session.waiting.length))] }) := by
  have notEnded : ¬Phase.closing ≤ t.session.phase := by rw [isOpen]; decide
  rw [close, if_neg notEnded, beginClose_of_open isOpen, abandon_of_closing rfl rfl,
    endClose_of_abandoned rfl rfl]
  rfl

/-- A session that is not open is not closed again. -/
theorem close_of_not_open (ended : t.session.phase ≠ .opened) : t.close = (0, t) := by
  have h : Phase.closing ≤ t.session.phase := by
    cases hp : t.session.phase with
    | opened => exact absurd hp ended
    | closing => decide
    | closed => decide
  rw [close, if_pos h]

end Turn

/-! ## Answers -/

/-- Whether a text is an answer to a call. -/
def Codec.answers (codec : Codec) (text : String) : Bool :=
  match codec.decode text with
  | .ok f => f.answer?.isSome
  | .error _ => false

theorem Codec.exists_of_answers {codec : Codec} {text : String} (h : codec.answers text = true) :
    ∃ f id raw, codec.decode text = .ok f ∧ f.answer? = some (id, raw) := by
  unfold Codec.answers at h
  split at h
  · rename_i f decodes
    obtain ⟨⟨id, raw⟩, answer⟩ := Option.isSome_iff_exists.1 h
    exact ⟨f, id, raw, decodes, answer⟩
  · cases h

/-- An answer is heard for the call of its id. -/
theorem Turn.hear_answer {t : Turn} {text id : String} {f : Frame} {raw : RawOutcome}
    (decodes : t.session.codec.decode text = .ok f) (answers : f.answer? = some (id, raw)) :
    t.hear text = t.answered id raw := by
  rw [hear, decodes]
  cases f with
  | call => cases answers
  | result | error =>
    cases answers
    rfl

/-! ## What the operations do for the peer -/

namespace Turn

variable {t : Turn} {text id action : String} {payload : Json} {fault : FrameFault}
  {call : InboundCall} {rest : List InboundCall} {h : Handler}

/-- A call waits for the worker. -/
theorem hear_buffered (decodes : t.session.codec.decode text = .ok (.call id action payload))
    (isOpen : t.session.phase = .opened) (loop : t.timers.hasLoop = true) :
    t.hear text = (false, { t with
      session := { t.session with inbox := t.session.inbox ++ [⟨id, action, payload⟩] } }) := by
  simp [hear, decodes, accept, Session.isOpen, isOpen, loop]

/-- A call is ignored if the session has ended or has no worker. -/
theorem hear_ignored (decodes : t.session.codec.decode text = .ok (.call id action payload))
    (idle : ¬(t.session.phase = .opened ∧ t.timers.hasLoop = true)) :
    t.hear text = (false, t) := by
  simp [hear, decodes, accept, Session.isOpen, idle]

/-- A text that is no frame is refused. -/
theorem hear_refused (fails : t.session.codec.decode text = .error fault)
    (answerable : Frame.answerable? text = some id) (linked : t.session.linked = true) :
    t.hear text = (false, { t with effects := t.effects ++ [.sent (t.session.codec.encode
      (.refusal id fault.code t.session.version Json.empty))] }) := by
  simp [hear, fails, refuse, answerable, transmit, linked, emit]

/-- It is dropped if it cannot be refused. -/
theorem hear_dropped (fails : t.session.codec.decode text = .error fault)
    (silent : Frame.answerable? text = none ∨ t.session.linked = false) :
    t.hear text = (false, t) := by
  rcases silent with none | unlinked
  · simp [hear, fails, refuse, none]
  · cases answerable : Frame.answerable? text <;>
      simp [hear, fails, refuse, answerable, transmit, unlinked]

/-- A reply follows the record of its call, if there is a transport. -/
theorem reply_eq (t : Turn) (call : InboundCall) (result : Except DispatchFault Json) :
    t.reply call result = { t with
      effects := t.effects ++ .dispatched call result :: t.session.replies call result } := by
  cases linked : t.session.linked <;>
    simp [reply, transmit, emit, Session.replies, linked]

/-- The worker takes up nothing while a handler is running or a call has been taken up, or if no
call is there. -/
theorem takeUp_idle (idle : t.session.running ≠ none ∨ t.session.takenUp = true ∨
    t.session.inbox = []) : t.takeUp = t := by
  unfold takeUp
  split
  · simp_all
  · rfl

/-- The first call of the inbox is taken up while the session is open. -/
theorem takeUp_open (idle : t.session.running = none) (left : t.session.takenUp = false)
    (inbox : t.session.inbox = call :: rest) (isOpen : t.session.phase = .opened) :
    t.takeUp = { t with session := { t.session with takenUp := true } } := by
  simp [takeUp, idle, left, inbox, Session.isOpen, isOpen]

/-- After the end of the session, a call is lost. -/
theorem takeUp_ended (idle : t.session.running = none) (left : t.session.takenUp = false)
    (inbox : t.session.inbox = call :: rest) (ended : t.session.phase ≠ .opened) :
    t.takeUp = { t with session := { t.session with inbox := rest } } := by
  simp [takeUp, idle, left, inbox, Session.isOpen, ended]

/-- The worker answers nothing unless it has taken up a call. -/
theorem handle_idle (idle : t.session.running ≠ none ∨ t.session.takenUp = false ∨
    t.session.inbox = []) : t.handle = t := by
  unfold handle
  split
  · simp_all
  · rfl

/-- A call that the registry does not accept is refused. -/
theorem handle_declined {fault : DispatchFault} (idle : t.session.running = none)
    (taken : t.session.takenUp = true) (inbox : t.session.inbox = call :: rest)
    (fails : t.session.registry.accept call.action call.payload = .error fault) :
    t.handle = { t with
      session := { t.session with inbox := rest, takenUp := false }
      effects := t.effects ++
        .dispatched call (.error fault) :: t.session.replies call (.error fault) } := by
  simp [handle, idle, taken, inbox, fails, reply_eq, Session.replies]

/-- The handler of an accepted call is entered. -/
theorem handle_entered {request : Value} (idle : t.session.running = none)
    (taken : t.session.takenUp = true) (inbox : t.session.inbox = call :: rest)
    (accepts : t.session.registry.accept call.action call.payload = .ok (h, request)) :
    t.handle = { t with
      session := { t.session with inbox := rest, takenUp := false, running := some (call, h) }
      effects := t.effects ++ [.entered call h request] } := by
  simp [handle, idle, taken, inbox, accepts, emit]

/-- With nothing to serve, the worker does nothing. -/
theorem serve_idle (idle : t.canServe = false) : t.serve = t := by
  have none : t.session.running ≠ none ∨ t.session.inbox = [] := by
    rw [canServe, Bool.and_eq_false_iff] at idle
    simpa [← Option.isSome_iff_ne_none] using idle
  have later : t.takeUp = t := takeUp_idle (none.imp_right .inr)
  rw [serve, later, handle_idle (none.imp_right .inr)]

/-- In an open session, the worker takes up the first call of the inbox, if it has not done so. -/
theorem serve_open (idle : t.session.running = none) (inbox : t.session.inbox = call :: rest)
    (isOpen : t.session.phase = .opened) :
    t.serve = handle { t with session := { t.session with takenUp := true } } := by
  cases taken : t.session.takenUp with
  | false => rw [serve, takeUp_open idle taken inbox isOpen]
  | true => rw [serve, takeUp_idle (.inr (.inl taken)), ← taken]

/-- A call that the registry does not accept is taken up and refused. -/
theorem serve_declined {fault : DispatchFault} (idle : t.session.running = none)
    (inbox : t.session.inbox = call :: rest) (isOpen : t.session.phase = .opened)
    (fails : t.session.registry.accept call.action call.payload = .error fault) :
    t.serve = { t with
      session := { t.session with inbox := rest, takenUp := false }
      effects := t.effects ++
        .dispatched call (.error fault) :: t.session.replies call (.error fault) } :=
  (serve_open idle inbox isOpen).trans (handle_declined (by exact idle) rfl inbox fails)

/-- An accepted call is taken up and handled. -/
theorem serve_entered {request : Value} (idle : t.session.running = none)
    (inbox : t.session.inbox = call :: rest) (isOpen : t.session.phase = .opened)
    (accepts : t.session.registry.accept call.action call.payload = .ok (h, request)) :
    t.serve = { t with
      session := { t.session with inbox := rest, takenUp := false, running := some (call, h) }
      effects := t.effects ++ [.entered call h request] } :=
  (serve_open idle inbox isOpen).trans (handle_entered (by exact idle) rfl inbox accepts)

/-- Without a running handler, none ends. -/
theorem finish_idle (idle : t.session.running = none) (answer : Answer) : t.finish answer = t := by
  simp [finish, idle]

/-- The call of a handler that ends is answered. -/
theorem finish_running (running : t.session.running = some (call, h)) (answer : Answer) :
    t.finish answer = { t with
      session := { t.session with running := none }
      effects := t.effects ++ .returned call answer ::
        .dispatched call (Registry.conclude h.message answer) ::
          t.session.replies call (Registry.conclude h.message answer) } := by
  simp [finish, running, reply_eq, emit, Session.replies]

end Turn

/-! ## Own calls -/

namespace Chronicle

/-- A call in hand starts in the free slot, and the queue stays. -/
theorem start_owns {q : QueuedCall} (free : c.session.slot = .empty) :
    Owns ⟨c, some q⟩ ⟨{ c with turn := c.turn.start q }, none⟩ ∧
      (c.turn.start q).session.queue = c.session.queue := by
  cases loop : c.timers.hasLoop with
  | false =>
    rw [Turn.start_untimed loop]
    exact ⟨.single ⟨.untimed loop, rfl, rfl⟩, rfl⟩
  | true =>
    cases linked : c.session.linked with
    | true =>
      rw [Turn.start_linked loop free linked]
      exact ⟨.single ⟨.transmit loop linked, rfl, rfl⟩, rfl⟩
    | false =>
      rw [Turn.start_unlinked loop free linked]
      exact ⟨.single ⟨.miss loop linked, rfl, rfl⟩, rfl⟩

theorem send_owns (m : Message) (v : Value) : Owns ⟨c, none⟩ ⟨c.send m v, none⟩ := by
  rcases c.session.turnsAway_or m v with ⟨f, why⟩ | ⟨p, fit, isOpen, idle | ⟨taken, room⟩⟩
  · rw [send, Turn.send_away why]
    exact .single ⟨.turnAway why, rfl, rfl⟩
  -- an accepted call is in hand for a moment, and starts
  · have free : ((c.becomes { c.session with issued := c.session.issued + 1 } c.timers
        [.accepted c.session.issued]).ask m v).session.slot = .empty := idle.2
    rw [send, Turn.send_idle fit isOpen idle]
    exact .head ⟨.take fit isOpen idle, rfl, rfl⟩ (start_owns free).1
  · rw [send, Turn.send_queued fit isOpen taken room]
    exact .single ⟨.enqueue fit isOpen taken room, rfl, rfl⟩

/-- A queue is started one call at a time, until a call holds the slot or none is left. -/
theorem pumpFrom_owns : ∀ (q : List QueuedCall) (c : Chronicle), c.session.queue = q →
    Owns ⟨c, none⟩ ⟨{ c with turn := Turn.pumpFrom q c.turn }, none⟩ ∧
      ¬((Turn.pumpFrom q c.turn).session.phase = .opened ∧
        (Turn.pumpFrom q c.turn).session.slot = .empty ∧
        (Turn.pumpFrom q c.turn).session.queue ≠ []) := by
  intro q
  induction q with
  | nil =>
    intro c queue
    have h : Turn.pumpFrom [] c.turn = c.turn := by
      simp [Turn.pumpFrom, ← queue]
    rw [h]
    exact ⟨.refl, by simp [queue]⟩
  | cons x rest ih =>
    intro c queue
    by_cases ready : c.session.phase = .opened ∧ c.session.slot = .empty
    · obtain ⟨isOpen, free⟩ := ready
      -- the first of the queue is in hand, and starts; the rest is as before
      set d := c.becomes { c.session with queue := rest } c.timers [] with hd
      have hx : Turn.pumpFrom (x :: rest) c.turn = Turn.pumpFrom rest (d.turn.start x) := by
        rw [Turn.pumpFrom_ready isOpen free]
        simp [hd, becomes]
      obtain ⟨start, kept⟩ := start_owns (c := d) (q := x) free
      obtain ⟨pump, done⟩ := ih { d with turn := d.turn.start x } kept
      rw [hx]
      exact ⟨.head ⟨.takeNext isOpen free queue, rfl, rfl⟩ (start.trans pump), done⟩
    · have h : Turn.pumpFrom (x :: rest) c.turn = c.turn := by
        rw [Turn.pumpFrom_waits ready, ← queue]
      rw [h]
      exact ⟨.refl, fun h => ready ⟨h.1, h.2.1⟩⟩

theorem pump_owns (owed : 0 < c.owed) : Owns ⟨c, none⟩ ⟨c.pump, none⟩ := by
  obtain ⟨pump, done⟩ := pumpFrom_owns c.session.queue c rfl
  exact pump.tail ⟨.handedOn owed done, rfl, rfl⟩

theorem ring_owns (timer : Timer Expiry) (armed : timer ∈ c.timers.ofSession c.session.number)
    (due : timer.deadline ≤ c.now) : Owns ⟨c, none⟩ ⟨c.ring timer, none⟩ := by
  rw [ring]
  set t : Turn := { c.turn with timers := c.timers.abort timer.key }
  by_cases other : c.session.slot.outstandingId ≠ some timer.task.call
  · have h : c.turn.ring timer = (false, t) := Turn.settle_of_ne other
    rw [h]
    refine .single ⟨?_, rfl, rfl⟩
    convert Own.stale armed due other using 2
    simp [becomes, t]
  · obtain ⟨call, slot, same⟩ := PendingTable.exists_of_outstandingId (not_not.1 other)
    have held : t.session.slot = ⟨some call⟩ := slot
    rw [Turn.ring, Turn.lapse, Turn.settle_of_eq held same]
    exact .single ⟨.lapse armed due slot same, rfl, rfl⟩

/-! ## What the peer asks -/

/-- An answer settles the call that is outstanding under its id, or matches none. -/
theorem hear_owns {text : String} (answers : c.session.codec.answers text = true) :
    Owns ⟨c, none⟩ ⟨c.hear text, none⟩ ∨ ∃ id, Inbound c (c.hear text) ∧
      c.hear text = (c.becomes c.session c.timers
        [.published (c.session.event (.unmatched id))]).hears text := by
  obtain ⟨f, id, raw, decodes, answer⟩ := Codec.exists_of_answers answers
  by_cases other : c.session.slot.outstandingId ≠ some id
  · have unmatched : c.hear text = (c.becomes c.session c.timers
        [.published (c.session.event (.unmatched id))]).hears text := by
      rw [hear, Turn.hear_answer decodes answer, Turn.answered, Turn.settle_of_ne other]
      rfl
    refine .inr ⟨id, ?_, unmatched⟩
    rw [unmatched]
    exact .unmatched decodes answer other
  · obtain ⟨call, slot, same⟩ := PendingTable.exists_of_outstandingId (not_not.1 other)
    left
    rw [hear, Turn.hear_answer decodes answer, Turn.answered, Turn.settle_of_eq slot same]
    exact .single ⟨.answer decodes answer slot same, rfl, rfl⟩

/-- A text that is no answer is a call, or is no frame. -/
theorem hear_inbound {text : String} (asks : c.session.codec.answers text = false) :
    Inbound c (c.hear text) := by
  cases decodes : c.session.codec.decode text with
  | error fault =>
    cases answerable : Frame.answerable? text with
    | none =>
      rw [hear, Turn.hear_dropped decodes (.inl answerable)]
      exact .drop decodes (.inl answerable)
    | some id =>
      cases linked : c.session.linked with
      | false =>
        rw [hear, Turn.hear_dropped decodes (.inr linked)]
        exact .drop decodes (.inr linked)
      | true =>
        rw [hear, Turn.hear_refused decodes answerable linked]
        exact .refuse decodes answerable linked
  | ok f =>
    cases f with
    | call id action payload =>
      by_cases takes : c.session.phase = .opened ∧ c.timers.hasLoop = true
      · rw [hear, Turn.hear_buffered decodes takes.1 takes.2]
        convert Inbound.buffer decodes takes.1 takes.2 using 1
        simp [hears, becomes]
      · rw [hear, Turn.hear_ignored decodes takes]
        exact .ignore decodes takes
    | result | error => simp [Codec.answers, decodes, Frame.answer?] at asks

theorem hear_small (text : String) : Smalls ⟨c, none⟩ ⟨c.hear text, none⟩ := by
  cases answers : c.session.codec.answers text with
  | false => exact .single (.inbound (hear_inbound answers))
  | true =>
    rcases hear_owns answers with owns | ⟨-, inbound, -⟩
    · exact owns.smalls
    · exact .single (.inbound inbound)

/-- The worker takes up a call or drops it, if it is idle and one is there. -/
theorem takeUp_inbound : c.takeUp = c ∨ Inbound c c.takeUp := by
  cases running : c.session.running with
  | some r => exact .inl (by rw [takeUp, Turn.takeUp_idle (.inl (by simp [running]))])
  | none =>
    cases taken : c.session.takenUp with
    | true => exact .inl (by rw [takeUp, Turn.takeUp_idle (.inr (.inl taken))])
    | false =>
      cases inbox : c.session.inbox with
      | nil => exact .inl (by rw [takeUp, Turn.takeUp_idle (.inr (.inr inbox))])
      | cons call rest =>
        right
        by_cases isOpen : c.session.phase = .opened
        · rw [takeUp, Turn.takeUp_open running taken inbox isOpen]
          convert Inbound.takeUp running taken inbox isOpen using 1
          simp [becomes]
        · rw [takeUp, Turn.takeUp_ended running taken inbox isOpen]
          convert Inbound.skip running taken inbox isOpen using 1
          simp [becomes]

/-- The worker answers the call that it has taken up. -/
theorem handle_inbound : c.handle = c ∨ Inbound c c.handle := by
  cases running : c.session.running with
  | some r => exact .inl (by rw [handle, Turn.handle_idle (.inl (by simp [running]))])
  | none =>
    cases taken : c.session.takenUp with
    | false => exact .inl (by rw [handle, Turn.handle_idle (.inr (.inl taken))])
    | true =>
      cases inbox : c.session.inbox with
      | nil => exact .inl (by rw [handle, Turn.handle_idle (.inr (.inr inbox))])
      | cons call rest =>
        right
        cases accepts : c.session.registry.accept call.action call.payload with
        | error fault =>
          rw [handle, Turn.handle_declined running taken inbox accepts]
          exact .decline running taken inbox accepts
        | ok r =>
          rw [handle, Turn.handle_entered running taken inbox accepts]
          exact .enter running taken inbox accepts

/-- A handler ends, if one is running. -/
theorem finish_inbound (answer : Answer) : c.finish answer = c ∨ Inbound c (c.finish answer) := by
  cases running : c.session.running with
  | none =>
    left
    rw [finish, Turn.finish_idle running]
  | some r =>
    right
    rw [finish, Turn.finish_running running]
    exact .leave answer running

theorem takeUp_small : Smalls ⟨c, none⟩ ⟨c.takeUp, none⟩ := by
  rcases c.takeUp_inbound with h | h
  · rw [h]
  · exact .single (.inbound h)

theorem handle_small : Smalls ⟨c, none⟩ ⟨c.handle, none⟩ := by
  rcases c.handle_inbound with h | h
  · rw [h]
  · exact .single (.inbound h)

theorem finish_small (answer : Answer) : Smalls ⟨c, none⟩ ⟨c.finish answer, none⟩ := by
  rcases c.finish_inbound answer with h | h
  · rw [h]
  · exact .single (.inbound h)

/-! ## Closing -/

theorem closing_start (isOpen : c.session.phase = .opened) : c.closing .start =
    c.becomes { c.session with phase := .closing, abandoned := none } c.timers [] := by
  rw [closing, Turn.closing, Turn.beginClose_of_open isOpen]
  simp [becomes]

theorem closing_abandon (closing : c.session.phase = .closing)
    (first : c.session.abandoned = none) : c.closing .abandon = c.becomes
      { c.session with
        slot := .empty
        queue := []
        abandoned := some c.session.waiting.length }
      (c.session.slot.slot.elim c.timers c.timers.release) c.session.abandonment := by
  rw [Chronicle.closing, Turn.closing, Turn.abandon_of_closing closing first]
  rfl

theorem closing_finish {n : ℕ} (closing : c.session.phase = .closing)
    (done : c.session.abandoned = some n) : c.closing .finish =
      c.becomes { c.session with linked := false, phase := .closed } c.timers
        [.published (c.session.event (.closed n))] := by
  rw [Chronicle.closing, Turn.closing, Turn.endClose_of_abandoned closing done]
  rfl

/-- A step of closing is taken in its turn, or changes nothing. -/
theorem closing_own (step : ClosingStep) :
    c.closing step = c ∨ Own ⟨c, none⟩ ⟨c.closing step, none⟩ := by
  cases step with
  | start =>
    by_cases isOpen : c.session.phase = .opened
    · right
      rw [closing_start isOpen]
      exact .beginClose isOpen
    · exact .inl (by rw [closing, Turn.closing, Turn.beginClose_of_not_open isOpen])
  | abandon =>
    by_cases due : c.session.phase = .closing ∧ c.session.abandoned = none
    · right
      rw [closing_abandon due.1 due.2]
      exact .abandon due.1 due.2
    · exact .inl (by rw [closing, Turn.closing, Turn.abandon_idle due])
  | finish =>
    by_cases due : c.session.phase = .closing ∧ c.session.abandoned.isSome
    · right
      obtain ⟨ending, some⟩ := due
      obtain ⟨n, done⟩ := Option.isSome_iff_exists.1 some
      rw [closing_finish ending done]
      exact .endClose ending done
    · exact .inl (by rw [closing, Turn.closing, Turn.endClose_idle due])

theorem closing_small (step : ClosingStep) : Smalls ⟨c, none⟩ ⟨c.closing step, none⟩ := by
  rcases c.closing_own step with h | h
  · rw [h]
  · exact .single (.own h)

/-! ## All steps -/

/-- **A step is a sequence of small steps**, unless it goes on around the session. -/
theorem Step.small {d : Chronicle} (h : Step c d) : Smalls ⟨c, none⟩ ⟨d, none⟩ ∨ Ambient c d := by
  cases h with
  | send m v => exact .inl (send_owns m v).smalls
  | hear text => exact .inl (hear_small text)
  | ring timer armed due => exact .inl (ring_owns timer armed due).smalls
  | pump owed => exact .inl (pump_owns owed).smalls
  | takeUp => exact .inl takeUp_small
  | handle => exact .inl handle_small
  | finish answer => exact .inl (finish_small answer)
  | unlink => exact .inl (.single .unlink)
  | closing step => exact .inl (closing_small step)
  | share timers keyed loop own => exact .inr (.share timers keyed loop own)
  | wait ms handedOn punctual => exact .inr (.wait ms handedOn punctual)

end Chronicle

/-- The desks of all runs of all sessions. -/
inductive Desk.Reachable : Desk → Prop
  | opened (number : ℕ) (chargePointId : String) (registry : Registry) (config : SessionConfig)
      (codec : Codec) (label : String) (timers : Supervisor Expiry) (now : ℕ)
      (keyed : timers.Keyed) (unused : timers.ofSession number = []) :
      Reachable ⟨.opened number chargePointId registry config codec label timers now, none⟩
  | small {d e} : Reachable d → Small d e → Reachable e
  | ambient {c d} : Reachable ⟨c, none⟩ → Ambient c d → Reachable ⟨d, none⟩

theorem Desk.Reachable.smalls {d e : Desk} (hd : d.Reachable) (h : Smalls d e) : e.Reachable := by
  induction h with
  | refl => exact hd
  | tail _ h ih => exact ih.small h

/-- **What holds of every desk holds of every chronicle.** -/
theorem Chronicle.Reachable.desk (h : c.Reachable) : Desk.Reachable ⟨c, none⟩ := by
  induction h with
  | opened number chargePointId registry config codec label timers now keyed unused =>
    exact .opened number chargePointId registry config codec label timers now keyed unused
  | step _ h ih =>
    rcases h.small with h | h
    · exact ih.smalls h
    · exact ih.ambient h

end ChargeLink

import ChargeLink.Proofs.Frame.ReadBack
import ChargeLink.Proofs.Session.Fleet
import ChargeLink.Proofs.Session.Wire

/-!
# Answers and the calls they belong to

An answer settles the call that was transmitted under its id and has no outcome,
and no other: its payload or refusal becomes the outcome by the rules of that
call's own confirmation type, its timer is disarmed, and the oldest call of the
queue takes the slot, unless the session closes and the queue is about to fail.
An answer with any other id changes nothing and is published as unmatched.

* `Turn.pump_linked`, `Turn.pump_unlinked`: what handing on the slot comes to.
* `Chronicle.Reachable.answers_match`: so it is for every answer in every state.
-/

namespace ChargeLink

/-- What a call of this confirmation type ends with when a frame answers it. -/
inductive PayloadType.Judges (t : PayloadType) : Frame → Except CallFailure Value → Prop
  | confirmed {id p v} (decodes : t.decode p = .ok v) (valid : t.validate v = none) :
      Judges t (.result id p) (.ok v)
  | undecodable {id p fault} (fails : t.decode p = .error fault) :
      Judges t (.result id p) (.error (.badConfirmation fault.report))
  | invalid {id p v fault} (decodes : t.decode p = .ok v) (fails : t.validate v = some fault) :
      Judges t (.result id p) (.error (.badConfirmation fault))
  | refused {id code description details} : Judges t (.error id code description details)
      (.error (.refused (.ofWire code) description details))

/-- The outcome that an owner gets is the judgement of its confirmation type. -/
theorem Owner.judges (o : Owner) {f : Frame} {id : String} {raw : RawOutcome}
    (answers : f.answer? = some (id, raw)) : o.confirmation.Judges f (o.outcome raw) := by
  cases f with
  | call => cases answers
  | error =>
    cases answers
    exact .refused
  | result id p =>
    cases answers
    simp only [Owner.outcome]
    split
    · rename_i fails
      exact .undecodable fails
    · rename_i decodes
      split
      · rename_i fails
        exact .invalid decodes fails
      · rename_i valid
        exact .confirmed decodes valid

/-- A call ends well exactly with what its result decodes to, if that keeps the rules. -/
theorem PayloadType.Judges.ok_iff {t : PayloadType} {f : Frame} {o : Except CallFailure Value}
    (h : t.Judges f o) (v : Value) : o = .ok v ↔
      ∃ p, f = .result f.id p ∧ t.decode p = .ok v ∧ t.validate v = none := by
  constructor
  · rintro rfl
    cases h with
    | confirmed decodes valid => exact ⟨_, rfl, decodes, valid⟩
  · rintro ⟨p, same, decodes, valid⟩
    rw [same] at h
    -- the other judgements of a result contradict what it decodes to
    cases h with
    | confirmed decodes' => exact congrArg _ (Except.ok.inj (decodes'.symm.trans decodes))
    | undecodable fails => cases fails.symm.trans decodes
    | invalid decodes' fails =>
      cases decodes'.symm.trans decodes
      cases fails.symm.trans valid

theorem Frame.exists_answer {f : Frame} (answer : f.kind ≠ .call) :
    ∃ raw, f.answer? = some (f.id, raw) := by
  cases f with
  | call => exact absurd rfl answer
  | result => exact ⟨_, rfl⟩
  | error => exact ⟨_, rfl⟩

/-! ## Handing on the slot -/

/-- What handing on the free slot brings about: the oldest call of the queue is transmitted, or,
without a transport, all calls of the queue fail. A session that closes hands on nothing. -/
def Session.handOver (s : Session) : List Effect :=
  if s.phase ≠ .opened then []
  else if s.linked then
    (s.queue.head?.map fun q => [.started q.owner.ticket,
      .sent (s.codec.encode (.call s.nextId q.action q.payload)),
      .called q.owner.ticket s.nextId]).getD []
  else
    s.queue.flatMap fun q => [.started q.owner.ticket,
      .settled q.owner.ticket (.error (.transport "outbound channel closed"))]

namespace Session

variable {s : Session}

theorem handOver_ended (ended : s.phase ≠ .opened) : s.handOver = [] :=
  if_pos ended

theorem handOver_linked (isOpen : s.phase = .opened) (linked : s.linked = true) :
    s.handOver = (s.queue.head?.map fun q => [.started q.owner.ticket,
      .sent (s.codec.encode (.call s.nextId q.action q.payload)),
      .called q.owner.ticket s.nextId]).getD [] := by
  simp [handOver, isOpen, linked]

theorem handOver_unlinked (isOpen : s.phase = .opened) (unlinked : s.linked = false) :
    s.handOver = s.queue.flatMap fun q => [.started q.owner.ticket,
      .settled q.owner.ticket (.error (.transport "outbound channel closed"))] := by
  simp [handOver, isOpen, unlinked]

theorem settlements_handOver (linked : s.linked = true) (time : ℕ) :
    Log.settlements (s.handOver.map fun e => (time, e)) = [] := by
  by_cases isOpen : s.phase = .opened
  · rw [handOver_linked isOpen linked]
    cases queue : s.queue <;> simp
  · simp [handOver_ended isOpen]

@[simp] theorem events_handOver (s : Session) (time : ℕ) :
    Log.events (s.handOver.map fun e => (time, e)) = [] := by
  by_cases isOpen : s.phase = .opened
  · cases linked : s.linked with
    | true =>
      rw [handOver_linked isOpen linked]
      cases queue : s.queue <;> simp
    | false =>
      rw [handOver_unlinked isOpen linked]
      induction s.queue with
      | nil => rfl
      | cons q rest ih => simpa using ih
  · simp [handOver_ended isOpen]

end Session

namespace Turn

variable {t : Turn}

/-- With a transport, the oldest call of the queue takes the slot, and the others wait on. -/
theorem pump_linked (isOpen : t.session.phase = .opened) (free : t.session.slot = .empty)
    (loop : t.timers.hasLoop = true) (linked : t.session.linked = true) :
    t.pump.effects = t.effects ++ t.session.handOver ∧
      t.pump.session.slot = ⟨t.session.queue.head?.map t.pending⟩ ∧
      t.pump.session.queue = t.session.queue.tail := by
  cases queue : t.session.queue with
  | nil =>
    simp [pump, pumpFrom, queue, free, Session.handOver_linked isOpen linked, PendingTable.empty]
  | cons q rest =>
    set u : Turn := { t with session := { t.session with queue := rest } } with hu
    have start := start_linked (t := u) (q := q) loop free linked
    -- once the first call has started, the slot is taken
    have pump : t.pump = u.start q := by
      rw [pump, queue, pumpFrom_ready isOpen free, ← hu, start]
      exact pumpFrom_waits (by simp [PendingTable.empty]) rest
    rw [pump, start]
    simp [Session.handOver_linked isOpen linked, queue, hu, pending, deadline, Session.nextId]

/-- Without a transport, the calls of the queue fail one after the other. -/
theorem pump_unlinked (isOpen : t.session.phase = .opened) (free : t.session.slot = .empty)
    (loop : t.timers.hasLoop = true) (unlinked : t.session.linked = false) :
    t.pump.effects = t.effects ++ t.session.handOver ∧
      t.pump.session.slot = .empty ∧ t.pump.session.queue = [] := by
  have all : ∀ (q : List QueuedCall) (u : Turn), u.session.phase = .opened →
      u.session.slot = .empty → u.timers.hasLoop = true → u.session.linked = false →
      (pumpFrom q u).effects = u.effects ++ q.flatMap (fun q => [.started q.owner.ticket,
        .settled q.owner.ticket (.error (.transport "outbound channel closed"))]) ∧
      (pumpFrom q u).session.slot = .empty ∧ (pumpFrom q u).session.queue = [] := by
    intro q
    induction q with
    | nil => intro u _ free _ _; simp [pumpFrom, free]
    | cons x rest ih =>
      intro u isOpen free loop unlinked
      have start := start_unlinked (t := { u with session := { u.session with queue := rest } })
        (q := x) loop free unlinked
      obtain ⟨effects, slot, queue⟩ := ih
        (Turn.start { u with session := { u.session with queue := rest } } x)
        (by rw [start]; exact isOpen) (by rw [start]) (by rw [start]; exact loop)
        (by rw [start]; exact unlinked)
      rw [pumpFrom_ready isOpen free]
      refine ⟨?_, slot, queue⟩
      rw [effects, start]
      simp
  rw [Session.handOver_unlinked isOpen unlinked]
  exact all t.session.queue t isOpen free loop unlinked

/-- A session that closes leaves its slot free. -/
theorem pump_ended (ended : t.session.phase ≠ .opened) : t.pump = t := by
  cases queue : t.session.queue with
  | nil =>
    rw [pump, queue, pumpFrom, ← queue]
  | cons q rest =>
    rw [pump, queue, pumpFrom_waits fun ready => ended ready.1, ← queue]

end Turn

/-! ## Answers -/

/-- Only where timers can be armed does a call hold the slot. -/
theorem hasLoop_of_held {d : Desk} (h : d.Reachable) :
    d.chronicle.session.slot = .empty ∨ d.chronicle.timers.hasLoop = true := by
  induction h with
  | opened => exact .inl rfl
  | small _ step ih =>
    cases step with
    | own step =>
      cases step with
      | transmit loop => exact .inr loop
      | miss | answer | lapse | abandon => exact .inl rfl
      | _ => exact ih
    | inbound step =>
      rw [step.same.slot, step.same.timers]
      exact ih
    | unlink => exact ih
  | ambient _ step ih =>
    cases step with
    | share timers keyed loop own => exact ih.imp_right (loop.trans ·)
    | wait => exact ih

namespace Chronicle

variable {c : Chronicle}

/-- A call that was transmitted and has no outcome holds the slot. -/
theorem mem_unanswered_iff (h : c.Reachable) {k : ℕ} {id : String} :
    (k, id) ∈ c.log.unanswered ↔
      ∃ call, c.session.slot = ⟨some call⟩ ∧ call.owner.ticket = k ∧ call.id = id := by
  have held : c.log.unanswered = c.session.held := Accounts.unanswered h.desk
  rw [held, Session.held]
  rcases slot : c.session.slot with ⟨_ | call⟩ <;> simp [eq_comm]

/-- An answer to the outstanding call settles it, and the slot is handed on. -/
theorem receive_of_eq {text : String} {f : Frame} {raw : RawOutcome} {call : PendingCall ℕ Owner}
    (decodes : c.session.codec.decode text = .ok f) (answers : f.answer? = some (call.id, raw))
    (slot : c.session.slot = ⟨some call⟩) :
    c.receive text = { c with
      turn := Turn.pump { c.turn with
        session := { c.session with slot := .empty }
        timers := c.timers.release call
        effects := c.turn.effects ++ [.settled call.owner.ticket (call.owner.outcome raw)] }
      heard := c.heard ++ [text] } := by
  rw [receive, Turn.receive, Turn.hear_answer decodes answers, Turn.answered,
    Turn.settle_of_eq slot rfl]
  rfl

/-- An answer to any other id is published, and that is all. -/
theorem receive_of_ne {text id : String} {f : Frame} {raw : RawOutcome}
    (decodes : c.session.codec.decode text = .ok f) (answers : f.answer? = some (id, raw))
    (other : c.session.slot.outstandingId ≠ some id) :
    c.receive text = (c.becomes c.session c.timers
      [.published (c.session.event (.unmatched id))]).hears text := by
  rw [receive, Turn.receive, Turn.hear_answer decodes answers, Turn.answered,
    Turn.settle_of_ne other]
  rfl

/-- Taking a text from the peer is hearing it, and then handing on the slot if a call has left
it. -/
theorem Reachable.receive (h : c.Reachable) (text : String) :
    (c.receive text).Reachable ∧ Beside c (c.receive text) := by
  have steps : Steps c (c.receive text) ∧ Smalls ⟨c, none⟩ ⟨c.receive text, none⟩ := by
    have heard : c.hear text = { c with
        turn := (c.turn.hear text).2
        owed := c.owed + (c.turn.hear text).1.toNat
        heard := c.heard ++ [text] } := rfl
    rw [Chronicle.receive, Turn.receive]
    cases left : c.turn.hear text with
    | mk freed t =>
      rw [left] at heard
      cases freed with
      | false => exact ⟨.single (heard ▸ .hear text), heard ▸ hear_small text⟩
      | true =>
        have owed : 0 < (c.hear text).owed := by
          rw [heard]
          exact Nat.succ_pos _
        have pumped : (c.hear text).pump = { c with
            turn := t.pump
            heard := c.heard ++ [text] } := by
          rw [heard]
          rfl
        have step := Step.pump owed
        have small := (pump_owns owed).smalls
        rw [pumped] at step small
        exact ⟨.tail (.single (.hear text)) step, (hear_small text).trans small⟩
  exact ⟨h.steps steps.1, Beside.of_smalls h.desk steps.2⟩

/-- The next call gets an id that no call has had. -/
theorem Reachable.nextId_fresh (h : c.Reachable) : c.session.nextId ∉ c.log.calls.map Prod.snd := by
  have ids : c.log.calls.map Prod.snd = (List.range c.session.transmitted).map c.session.idOf :=
    (Wired.of_reachable h.desk).ids
  rw [ids]
  intro used
  obtain ⟨i, hi, same⟩ := List.mem_map.1 used
  have number : i = c.session.transmitted := c.session.idOf_injective same
  exact Nat.ne_of_lt (List.mem_range.1 hi) number

/-- From `c` to `d`, an answer ends the call of a ticket with an outcome. -/
structure Ends (c : Chronicle) (f : Frame) (k : ℕ) (o : Except CallFailure Value)
    (d : Chronicle) : Prop where
  /-- The confirmation type of the call itself judges the answer. -/
  judged : ∃ m v, c.asked[k]? = some (m, v) ∧ m.confirmation.Judges f o ∧
    ∀ w, o = .ok w ↔ ∃ p, f = .result f.id p ∧ m.confirmation.decode p = .ok w ∧
      m.confirmation.validate w = none
  /-- The call is settled and the slot is handed over; nothing else is brought about. -/
  log : d.log = c.log ++ (.settled k o :: c.session.handOver).map fun e => (c.now, e)
  alone : c.session.linked = true →
    d.log.settlements = c.log.settlements ++ [(k, c.now, o)]
  events : d.log.events = c.log.events
  disarmed : ∀ timer ∈ d.timers.armed, timer.task ≠ ⟨c.session.number, f.id⟩
  others : ∀ n, n ≠ c.session.number → d.timers.ofSession n = c.timers.ofSession n
  /-- The oldest call of the queue takes the slot, and the others wait on. -/
  slot : c.session.phase = .opened → d.session.slot =
    ⟨if c.session.linked then c.session.queue.head?.map c.turn.pending else none⟩
  queue : c.session.phase = .opened →
    d.session.queue = if c.session.linked then c.session.queue.tail else []
  /-- The calls of a session that closes wait for nothing but to fail. -/
  ended : c.session.phase ≠ .opened → d.session.slot = .empty ∧ d.session.queue = c.session.queue

/-- The outstanding call ends with the answer that bears its id. -/
theorem Reachable.ends (h : c.Reachable) {text : String} {f : Frame} {raw : RawOutcome}
    {call : PendingCall ℕ Owner} (decodes : c.session.codec.decode text = .ok f)
    (answers : f.answer? = some (f.id, raw)) (slot : c.session.slot = ⟨some call⟩)
    (same : call.id = f.id) :
    Ends c f call.owner.ticket (call.owner.outcome raw) (c.receive text) := by
  have loop : (c.timers.release call).hasLoop = true := by
    rw [Supervisor.hasLoop_release]
    refine (hasLoop_of_held h.desk).resolve_left fun (empty : c.session.slot = .empty) => ?_
    cases slot.symm.trans empty
  obtain ⟨called, m, v, asked, confirmation⟩ := (Wired.of_reachable h.desk).held call slot
  have judged := call.owner.judges answers
  rw [confirmation] at judged
  have received := receive_of_eq decodes (same ▸ answers) slot
  obtain ⟨reachable, beside⟩ := h.receive text
  set t : Turn := { c.turn with
    session := { c.session with slot := .empty }
    timers := c.timers.release call
    effects := c.turn.effects ++ [.settled call.owner.ticket (call.owner.outcome raw)] } with ht
  have ended : c.session.phase ≠ .opened → t.pump = t := Turn.pump_ended (t := t)
  -- what handing on the slot comes to, with and without a transport
  have opened : c.session.phase = .opened →
      t.pump.effects = t.effects ++ c.session.handOver ∧
      t.pump.session.slot =
        ⟨if c.session.linked then c.session.queue.head?.map c.turn.pending else none⟩ ∧
      t.pump.session.queue = if c.session.linked then c.session.queue.tail else [] := by
    intro isOpen
    cases linked : c.session.linked with
    | true =>
      obtain ⟨effects, taken, rest⟩ := Turn.pump_linked (t := t) isOpen rfl loop linked
      refine ⟨effects, taken.trans ?_, rest⟩
      rw [show t.pending = c.turn.pending from funext fun q => by
        simp [ht, Turn.pending, Turn.deadline, Supervisor.nextKey_release, Session.nextId]]
      rfl
    | false => exact Turn.pump_unlinked (t := t) isOpen rfl loop linked
  have effects : t.pump.effects = t.effects ++ c.session.handOver := by
    by_cases isOpen : c.session.phase = .opened
    · exact (opened isOpen).1
    · rw [ended isOpen, Session.handOver_ended isOpen, List.append_nil]
  have log : (c.receive text).log =
      c.log ++ (.settled call.owner.ticket (call.owner.outcome raw) :: c.session.handOver).map
        fun e => (c.now, e) := by
    rw [Chronicle.log, beside.now, received]
    simp only [effects]
    simp [Chronicle.log, ht]
  refine ⟨⟨m, v, asked, judged, judged.ok_iff⟩, log, ?_, ?_, ?_, beside.others, ?_, ?_, ?_⟩
  · intro linked
    simp [log, Session.settlements_handOver linked]
  · simp [log]
  · intro timer armed same'
    -- a timer of the session is that of the call that took the slot, and its id is new
    have own : timer ∈ (c.receive text).timers.ofSession (c.receive text).session.number := by
      simp [Supervisor.ofSession, armed, same', beside.number]
    obtain ⟨next, held, -, id, -⟩ := (Sound.of_reachable reachable.desk).held_of_armed own
    rw [show (c.receive text).session = t.pump.session by rw [received]] at held
    by_cases isOpen : c.session.phase = .opened
    · rw [(opened isOpen).2.1] at held
      split at held
      · obtain ⟨q, -, pending⟩ := Option.map_eq_some_iff.1 (PendingTable.mk.inj held)
        refine h.nextId_fresh (List.mem_map.2 ⟨_, called, ?_⟩)
        rw [same, show c.session.nextId = next.id from pending ▸ rfl, id, same']
      · cases held
    · rw [ended isOpen] at held
      cases held
  · rw [received]
    exact fun isOpen => (opened isOpen).2.1
  · rw [received]
    exact fun isOpen => (opened isOpen).2.2
  · intro closes
    rw [received]
    exact ⟨by rw [ended closes], by rw [ended closes]⟩

/-- **Every answer ends one call or none.** If the call that was transmitted under the id of the
answer has no outcome, and so holds the slot, then the answer ends it. If there is no such call, then
nothing changes, and the id is published as unmatched; so it is for the id of a call that has been
settled. -/
theorem Reachable.answers_match (h : c.Reachable) {text : String} {f : Frame}
    (decodes : c.session.codec.decode text = .ok f) (answer : f.kind ≠ .call) :
    (c.session.slot.outstandingId = some f.id ↔ ∃ k, (k, f.id) ∈ c.log.unanswered) ∧
    (∀ k, (k, f.id) ∈ c.log.unanswered → ∃ o, Ends c f k o (c.receive text)) ∧
    ((∀ k, (k, f.id) ∉ c.log.unanswered) → (c.receive text).session = c.session ∧
      (c.receive text).timers = c.timers ∧
      (c.receive text).log =
        c.log ++ [(c.now, .published (c.session.event (.unmatched f.id)))]) ∧
    ∀ k, (k, f.id) ∈ c.log.calls → k ∈ c.log.settled → ∀ j, (j, f.id) ∉ c.log.unanswered := by
  obtain ⟨raw, answers⟩ := Frame.exists_answer answer
  have held : c.session.slot.outstandingId = some f.id ↔ ∃ k, (k, f.id) ∈ c.log.unanswered := by
    constructor
    · intro outstanding
      obtain ⟨call, slot, same⟩ := PendingTable.exists_of_outstandingId outstanding
      exact ⟨_, (mem_unanswered_iff h).2 ⟨call, slot, rfl, same⟩⟩
    · rintro ⟨k, waits⟩
      obtain ⟨call, slot, -, same⟩ := (mem_unanswered_iff h).1 waits
      simp [slot, PendingTable.outstandingId, same]
  refine ⟨held, ?_, ?_, ?_⟩
  · intro k waits
    obtain ⟨call, slot, rfl, same⟩ := (mem_unanswered_iff h).1 waits
    exact ⟨_, h.ends decodes answers slot same⟩
  · intro none
    have other : c.session.slot.outstandingId ≠ some f.id := fun outstanding =>
      absurd (held.1 outstanding) (by simpa using none)
    rw [receive_of_ne decodes answers other]
    exact ⟨rfl, rfl, by rw [log_hears, log_becomes]; rfl⟩
  -- the outstanding call has an id of its own, and no outcome
  · intro k called settled j waits
    have ids := (Wired.of_reachable h.desk).ids_nodup
    obtain ⟨called', unsettled⟩ := List.mem_filter.1 waits
    have same : k = j := congrArg Prod.fst (List.inj_on_of_nodup_map ids called called' rfl)
    simp [← same, settled] at unsettled

/-- The peer has no room for a call. -/
def noRoom (id : String) : Frame :=
  .error id "InternalError" "no room" Json.empty

/-- Of two calls only the first has been transmitted: its refusal ends it, and the second takes the
slot; a refusal of the second is too early, and ends nothing. -/
theorem answers_match_first :
    let first := twoSent.receive (Codec.json.encode (noRoom "own#1"))
    let early := twoSent.receive (Codec.json.encode (noRoom "own#2"))
    Ends twoSent (noRoom "own#1") 0 (.error (.refused .internalError "no room" Json.empty)) first ∧
      first.session.slot.outstandingId = some "own#2" ∧ early.session = twoSent.session ∧
      early.log = twoSent.log ++ [(0, .published ⟨"CP-1", .unmatched "own#2"⟩)] := by
  have read : ∀ id, Codec.json.decode (Codec.json.encode (noRoom id)) = .ok (noRoom id) :=
    fun id => Frame.json_readBy _ ⟨.empty, rfl⟩
  have waits : twoSent.log.unanswered = [(0, "own#1")] := rfl
  have answer : ∀ id, (noRoom id).kind ≠ .call := by
    intro id
    simp [noRoom, Frame.kind]
  obtain ⟨-, ends, -⟩ := Reachable.twoSent.answers_match (read "own#1") (answer _)
  obtain ⟨-, -, unmatched, -⟩ := Reachable.twoSent.answers_match (read "own#2") (answer _)
  obtain ⟨o, ends⟩ := ends 0 (waits ▸ List.mem_cons_self)
  obtain ⟨same, -, log⟩ := unmatched (by simp [waits, noRoom, Frame.id])
  have refused : o = .error (.refused .internalError "no room" Json.empty) := by
    obtain ⟨m, v, -, judged, -⟩ := ends.judged
    cases judged
    rfl
  refine ⟨refused ▸ ends, ?_, same, log⟩
  rw [ends.slot rfl]
  rfl

end Chronicle

end ChargeLink

import ChargeLink.Proofs.Session.Matching

/-!
# Open sessions without a transport

A session may stay open after its transport has gone. A call that starts then has
taken the slot and armed its timer before it turns out that it cannot be
transmitted; it gives both back and fails. Handing on the slot goes on to the next
call of the queue, and so on: each round takes one call off the queue, and with no
transport the rounds end only when the queue is empty.

* `Turn.Rounds.length`, `Turn.pump_rounds`: handing on the slot is a bounded number of rounds.
* `Chronicle.Reachable.pump_drains`: without a transport, it lets all calls of the queue fail.
* `Chronicle.Reachable.unlinked_fails`: what sends, answers and deadlines come to.
-/

namespace ChargeLink

/-! ## Rounds -/

namespace Turn

/-- One round of handing on the slot: the oldest call of the queue starts. -/
inductive Round : Turn → Turn → Prop
  | start {t : Turn} {q : QueuedCall} {rest : List QueuedCall}
      (isOpen : t.session.phase = .opened) (free : t.session.slot = .empty)
      (queue : t.session.queue = q :: rest) :
      Round t (Turn.start { t with session := { t.session with queue := rest } } q)

/-- So many rounds lead from one turn to another. -/
inductive Rounds : ℕ → Turn → Turn → Prop
  | nil (t : Turn) : Rounds 0 t t
  | cons {n : ℕ} {t u v : Turn} (first : Round t u) (rest : Rounds n u v) : Rounds (n + 1) t v

variable {t u : Turn} {q : QueuedCall}

/-- Starting a call in the free slot is nothing to the queue. -/
theorem queue_start (free : t.session.slot = .empty) (q : QueuedCall) :
    (t.start q).session.queue = t.session.queue :=
  (Chronicle.start_owns (c := ⟨t, 0, [], [], []⟩) free).2

/-- A round takes one call off the queue. -/
theorem Round.length (h : Round t u) :
    u.session.queue.length + 1 = t.session.queue.length := by
  cases h with
  | @start q rest isOpen free queue =>
    rw [queue_start (t := { t with session := { t.session with queue := rest } }) free, queue]
    rfl

/-- **Each round takes one call off the queue**, so there are no more rounds than calls. -/
theorem Rounds.length {n : ℕ} (h : Rounds n t u) :
    n + u.session.queue.length = t.session.queue.length := by
  induction h with
  | nil => exact Nat.zero_add _
  | cons first rest ih =>
    rw [← first.length, ← ih]
    omega

/-- **Handing on the slot is a sequence of rounds**, after which there is no other round. -/
theorem pump_rounds (t : Turn) : (∃ n, Rounds n t t.pump) ∧ ∀ u, ¬Round t.pump u := by
  suffices all : ∀ (queue : List QueuedCall) (t : Turn), t.session.queue = queue →
      (∃ n, Rounds n t (pumpFrom queue t)) ∧ ∀ u, ¬Round (pumpFrom queue t) u from all _ t rfl
  intro queue
  induction queue with
  | nil =>
    intro t queue
    have same : pumpFrom [] t = t := by simp [pumpFrom, ← queue]
    rw [same]
    refine ⟨⟨0, .nil t⟩, ?_⟩
    rintro u ⟨-, -, more⟩
    rw [queue] at more
    cases more
  | cons q rest ih =>
    intro t queue
    by_cases ready : t.session.phase = .opened ∧ t.session.slot = .empty
    · obtain ⟨isOpen, free⟩ := ready
      obtain ⟨⟨n, rounds⟩, last⟩ := ih
        (Turn.start { t with session := { t.session with queue := rest } } q)
        (queue_start (t := { t with session := { t.session with queue := rest } }) free q)
      rw [pumpFrom_ready isOpen free]
      exact ⟨⟨n + 1, .cons (.start isOpen free queue) rounds⟩, last⟩
    · have same : pumpFrom (q :: rest) t = t := by rw [pumpFrom_waits ready, ← queue]
      rw [same]
      refine ⟨⟨0, .nil t⟩, ?_⟩
      rintro u ⟨isOpen, free, -⟩
      exact ready ⟨isOpen, free⟩

end Turn

/-- Settling the outstanding call empties the slot, and leaves the rest of the session alone. -/
theorem Turn.exists_settle {t : Turn} {call : PendingCall ℕ Owner} {id : String}
    (slot : t.session.slot = ⟨some call⟩) (same : call.id = id) (raw : RawOutcome) :
    ∃ u, t.settle id raw = (true, u) ∧ u.session = { t.session with slot := .empty } ∧
      u.effects = t.effects ++ [.settled call.owner.ticket (call.owner.outcome raw)] :=
  ⟨_, settle_of_eq slot same, rfl, rfl⟩

/-! ## Calls that cannot be transmitted -/

/-- Why a call fails that starts without a transport: it is not transmitted, or it got no timer. -/
def Supervisor.refusal (s : Supervisor Expiry) : CallFailure :=
  .transport (if s.hasLoop then "outbound channel closed" else noLoopMessage)

/-- A call that cannot be transmitted leaves the slot as it was, and no timer. -/
theorem Turn.start_fails {t : Turn} (keyed : t.timers.Keyed) (free : t.session.slot = .empty)
    (unlinked : t.session.linked = false) (q : QueuedCall) :
    (t.start q).session = t.session ∧ (t.start q).timers.armed = t.timers.armed ∧
      (t.start q).effects = t.effects ++ [.started q.owner.ticket,
        .settled q.owner.ticket (.error t.timers.refusal)] := by
  cases loop : t.timers.hasLoop with
  | false =>
    rw [start_untimed loop]
    simp [Supervisor.refusal, loop]
  | true =>
    rw [start_unlinked loop free unlinked]
    refine ⟨?_, armed_abort keyed, by simp [Supervisor.refusal, loop]⟩
    rw [← free]

namespace Session

/-- What is brought about for the calls of the queue when none of them can be transmitted. -/
def losses (s : Session) : List Effect :=
  s.queue.flatMap fun q => [.started q.owner.ticket,
    .settled q.owner.ticket (.error (.transport "outbound channel closed"))]

theorem settlements_losses (s : Session) (time : ℕ) :
    Log.settlements (s.losses.map fun e => (time, e)) =
      s.queued.map (·, time, .error (.transport "outbound channel closed")) := by
  simp only [losses, queued]
  induction s.queue with
  | nil => rfl
  | cons q rest ih => simpa using ih

theorem texts_losses (s : Session) (time : ℕ) :
    Log.texts (s.losses.map fun e => (time, e)) = [] := by
  simp only [losses]
  induction s.queue with
  | nil => rfl
  | cons q rest ih => simpa using ih

end Session

namespace Chronicle

variable {c d : Chronicle}

/-- From `c` to `d` these effects were brought about first, and then each call of the queue was
started in its turn and failed, one round after the other. The session is open and has nothing left. -/
structure Drains (c : Chronicle) (first : List Effect) (d : Chronicle) : Prop where
  log : d.log = c.log ++ (first ++ c.session.losses).map fun e => (c.now, e)
  settlements : d.log.settlements = c.log.settlements ++
    Log.settlements (first.map fun e => (c.now, e)) ++
      c.session.queued.map (·, c.now, .error (.transport "outbound channel closed"))
  texts : d.log.texts = c.log.texts ++ Log.texts (first.map fun e => (c.now, e))
  slot : d.session.slot = .empty
  queue : d.session.queue = []
  untimed : d.timers.ofSession d.session.number = []
  others : ∀ n, n ≠ c.session.number → d.timers.ofSession n = c.timers.ofSession n
  phase : d.session.phase = .opened
  rounds : ∃ t : Turn, t.session.queue = c.session.queue ∧ t.session.slot = .empty ∧
    Turn.Rounds c.session.queue.length t d.turn ∧ ∀ u, ¬Turn.Round d.turn u

theorem phase_of_owns {d e : Desk} (h : Owns d e) :
    e.chronicle.session.phase = d.chronicle.session.phase := by
  induction h with
  | refl => rfl
  | tail _ step ih => exact step.2.1.trans ih

/-- Only where timers can be armed does a call leave the slot. -/
theorem hasLoop_of_owed {d : Desk} (h : d.Reachable) :
    d.chronicle.owed = 0 ∨ d.chronicle.timers.hasLoop = true := by
  induction h with
  | opened => exact .inl rfl
  | @small d e reachable step ih =>
    -- a call that leaves the slot has held it
    have held : ∀ call, d.chronicle.session.slot = ⟨some call⟩ →
        d.chronicle.timers.hasLoop = true := fun call slot =>
      (hasLoop_of_held reachable).resolve_left fun empty => by cases slot.symm.trans empty
    cases step with
    | own step =>
      cases step with
      | answer decodes answers slot same =>
        exact .inr ((Supervisor.hasLoop_release ..).trans (held _ slot))
      | lapse armed due slot same =>
        exact .inr ((Supervisor.hasLoop_release ..).trans (held _ slot))
      | @abandon c =>
        refine ih.imp_right fun loop => ?_
        show (c.session.slot.slot.elim c.timers c.timers.release).hasLoop = true
        cases c.session.slot.slot with
        | none => exact loop
        | some call => exact (Supervisor.hasLoop_release ..).trans loop
      | handedOn owed done => exact .inr (ih.resolve_left (Nat.ne_of_gt owed))
      | transmit loop | miss loop => exact .inr loop
      | _ => exact ih
    | inbound step =>
      rw [step.same.owed, step.same.timers]
      exact ih
    | unlink => exact ih
  | ambient _ step ih =>
    cases step with
    | share timers keyed loop own => exact ih.imp_right (loop.trans ·)
    | wait => exact ih

/-- **Without a transport, handing on the slot lets all calls of the queue fail**, in order. -/
theorem Reachable.pump_drains (h : c.Reachable) (owed : 0 < c.owed)
    (isOpen : c.session.phase = .opened) (free : c.session.slot = .empty)
    (unlinked : c.session.linked = false) : Drains c [] c.pump := by
  have loop : c.timers.hasLoop = true := (hasLoop_of_owed h.desk).resolve_left (Nat.ne_of_gt owed)
  obtain ⟨effects, slot, queue⟩ := Turn.pump_unlinked (t := c.turn) isOpen free loop unlinked
  have losses : c.session.handOver = c.session.losses :=
    Session.handOver_unlinked isOpen unlinked
  have beside := Beside.of_smalls h.desk (pump_owns owed).smalls
  have log : c.pump.log = c.log ++ c.session.losses.map fun e => (c.now, e) := by
    rw [Chronicle.log, beside.now, ← losses]
    show c.past ++ c.turn.pump.effects.map _ = _
    rw [effects]
    simp [Chronicle.log]
  obtain ⟨⟨n, rounds⟩, last⟩ := c.turn.pump_rounds
  have number : n = c.session.queue.length := by
    have := rounds.length
    rw [queue] at this
    exact this
  refine ⟨log, ?_, ?_, slot, queue, ?_, beside.others, ?_, c.turn, rfl, free, number ▸ rounds,
    last⟩
  · simp [log, Session.settlements_losses]
  · simp [log, Session.texts_losses]
  · exact (Sound.of_reachable (h.step (.pump owed)).desk).free slot
  · exact (phase_of_owns (pump_owns owed)).trans isOpen

/-- What happens at once before the queue fails comes first. -/
theorem Drains.after {b : Chronicle} {first : List Effect} (h : Drains c [] d)
    (log : c.log = b.log ++ first.map fun e => (b.now, e)) (now : c.now = b.now)
    (queue : c.session.queue = b.session.queue) (beside : Beside b c) : Drains b first d := by
  have queued : c.session.queued = b.session.queued := by rw [Session.queued, queue, Session.queued]
  have losses : c.session.losses = b.session.losses := by rw [Session.losses, queue, Session.losses]
  refine ⟨?_, ?_, ?_, h.slot, h.queue, h.untimed, ?_, h.phase, queue ▸ h.rounds⟩
  · rw [h.log, log, now, losses]
    simp
  · rw [h.settlements, log, now, queued]
    simp
  · rw [h.texts, log]
    simp
  · intro n other
    rw [h.others n (by rwa [beside.number]), beside.others n other]

/-- Once a call has left the slot, the queue fails after it. -/
theorem Reachable.left_drains (h : c.Reachable) {first : List Effect} (step : Step c d)
    (small : Smalls ⟨c, none⟩ ⟨d, none⟩) (isOpen : c.session.phase = .opened)
    (unlinked : c.session.linked = false) (left : d.session = { c.session with slot := .empty })
    (owed : 0 < d.owed) (log : d.log = c.log ++ first.map fun e => (c.now, e)) :
    Drains c first d.pump := by
  have beside := Beside.of_smalls h.desk small
  have drains : Drains d [] d.pump :=
    (h.step step).pump_drains owed (by rw [left]; exact isOpen) (by rw [left])
      (by rw [left]; exact unlinked)
  exact drains.after log beside.now (by rw [left]) beside

/-- An answer to the outstanding call lets the queue fail after it. -/
theorem Reachable.receive_drains (h : c.Reachable) (isOpen : c.session.phase = .opened)
    (unlinked : c.session.linked = false) {text : String} {f : Frame} {raw : RawOutcome}
    {call : PendingCall ℕ Owner} (decodes : c.session.codec.decode text = .ok f)
    (answers : f.answer? = some (call.id, raw)) (slot : c.session.slot = ⟨some call⟩) :
    Drains c [.settled call.owner.ticket (call.owner.outcome raw)] (c.receive text) := by
  obtain ⟨t, settled, left, effects⟩ := Turn.exists_settle slot rfl raw
  have heard : c.turn.hear text = (true, t) := by
    rw [Turn.hear_answer decodes answers, Turn.answered, settled]
  have hears : c.hear text =
      { c with turn := t, owed := c.owed + 1, heard := c.heard ++ [text] } := by
    rw [Chronicle.hear, heard]
    rfl
  have received : (c.hear text).pump = c.receive text := by
    rw [hears, Chronicle.receive, Turn.receive, heard]
    rfl
  have beside := Beside.of_smalls h.desk (hear_small (c := c) text)
  rw [← received]
  refine h.left_drains (.hear text) (hear_small text) isOpen unlinked (hears ▸ left) ?_ ?_
  · rw [hears]
    exact Nat.succ_pos _
  · rw [Chronicle.log, beside.now, hears]
    simp [effects, Chronicle.log]

/-- So does its deadline. -/
theorem Reachable.expire_drains (h : c.Reachable) (isOpen : c.session.phase = .opened)
    (unlinked : c.session.linked = false) {timer : Timer Expiry} {call : PendingCall ℕ Owner}
    (armed : timer ∈ c.timers.ofSession c.session.number) (due : timer.deadline ≤ c.now)
    (slot : c.session.slot = ⟨some call⟩) (same : call.id = timer.task.call) :
    Drains c [.settled call.owner.ticket (.error .timeout)] (c.expire timer) := by
  obtain ⟨t, settled, left, effects⟩ := Turn.exists_settle
    (t := { c.turn with timers := c.timers.abort timer.key }) slot same (.error .timeout)
  have rung : c.turn.ring timer = (true, t) := settled
  have rings : c.ring timer = { c with turn := t, owed := c.owed + 1 } := by
    rw [Chronicle.ring, rung]
    rfl
  have expired : (c.ring timer).pump = c.expire timer := by
    have lapsed : Turn.lapse { c.turn with timers := c.timers.abort timer.key } timer.task.call =
        (true, t) := settled
    rw [rings, Chronicle.expire, Turn.expire, lapsed]
    rfl
  have owns := (ring_owns timer armed due).smalls
  have beside := Beside.of_smalls h.desk owns
  rw [← expired]
  refine h.left_drains (.ring timer armed due) owns isOpen unlinked (rings ▸ left) ?_ ?_
  · rw [rings]
    exact Nat.succ_pos _
  · rw [Chronicle.log, beside.now, rings]
    simp [effects, Chronicle.log, Owner.outcome]

/-- A call that finds the slot free is accepted, starts and fails; it leaves nothing behind. -/
theorem Reachable.send_fails (h : c.Reachable) (isOpen : c.session.phase = .opened)
    (unlinked : c.session.linked = false) {m : Message} {v : Value} {p : Json}
    (fit : m.Encodes v p) (idle : c.session.Idle) :
    (c.send m v).session = { c.session with issued := c.session.issued + 1 } ∧
      (c.send m v).timers.armed = c.timers.armed ∧
      (c.send m v).log = c.log ++ [.accepted c.session.issued, .started c.session.issued,
        .settled c.session.issued (.error c.timers.refusal)].map fun e => (c.now, e) := by
  have keyed : c.timers.Keyed := (Sound.of_reachable h.desk).keyed
  obtain ⟨session, armed, effects⟩ := Turn.start_fails (t := { c.turn with
    session := { c.session with issued := c.session.issued + 1 }
    effects := c.turn.effects ++ [.accepted c.session.issued] }) keyed idle.2 unlinked
    (c.session.nextCall m p)
  have sent := Turn.send_idle fit isOpen idle
  have beside := Beside.of_smalls h.desk (send_owns (c := c) m v).smalls
  refine ⟨?_, ?_, ?_⟩
  · rw [Chronicle.send, Chronicle.session, sent, session]
  · rw [Chronicle.send, Chronicle.timers, sent, armed]
  · rw [Chronicle.log, beside.now]
    show c.past ++ (c.turn.send m v).2.effects.map _ = _
    rw [sent, effects]
    simp [Chronicle.log, Session.nextCall]

/-- **An open session without a transport fails calls and keeps nothing of them.** Between two
operations nobody waits for a free slot. A request that is fit to be sent and finds the slot free
fails, and slot, queue, phase and armed timers stay as they were. If the outstanding call is answered
or its deadline comes, then it is settled, and within the same operation all calls of the queue fail
after it, in order; so they do whenever the slot is handed on. That takes as many rounds as there are
calls in the queue, and no handing on takes more. -/
theorem Reachable.unlinked_fails (h : c.Reachable) (isOpen : c.session.phase = .opened)
    (unlinked : c.session.linked = false) :
    (c.owed = 0 → c.session.slot = .empty → c.session.queue = []) ∧
    (∀ m v p, m.Encodes v p → c.session.slot = .empty → c.session.queue = [] →
      (c.send m v).log = c.log ++ [.accepted (c.turn.send m v).1, .started (c.turn.send m v).1,
        .settled (c.turn.send m v).1 (.error c.timers.refusal)].map (fun e => (c.now, e)) ∧
      (c.send m v).session.slot = c.session.slot ∧ (c.send m v).session.queue = c.session.queue ∧
      (c.send m v).session.phase = c.session.phase ∧
      (c.send m v).timers.armed = c.timers.armed) ∧
    (∀ text f, c.session.codec.decode text = .ok f → f.kind ≠ .call →
      ∀ k, (k, f.id) ∈ c.log.unanswered → ∃ m v o, c.asked[k]? = some (m, v) ∧
        m.confirmation.Judges f o ∧ Drains c [.settled k o] (c.receive text)) ∧
    (∀ timer ∈ c.timers.ofSession c.session.number, timer.deadline ≤ c.now →
      ∃ k, (k, timer.task.call) ∈ c.log.unanswered ∧
        Drains c [.settled k (.error .timeout)] (c.expire timer)) ∧
    (0 < c.owed → c.session.slot = .empty → Drains c [] c.pump) ∧
    ∀ n t u, Turn.Rounds n t u → n ≤ t.session.queue.length := by
  have sound : Sound c none := Sound.of_reachable h.desk
  refine ⟨?_, ?_, ?_, ?_, fun owed free => h.pump_drains owed isOpen free unlinked, ?_⟩
  · intro settled free
    by_contra waits
    exact Nat.ne_of_gt (sound.served isOpen free waits) settled
  · intro m v p fit free empty
    obtain ⟨session, armed, log⟩ := h.send_fails isOpen unlinked fit ⟨empty, free⟩
    rw [session]
    exact ⟨log, rfl, rfl, rfl, armed⟩
  · intro text f decodes answer k waits
    obtain ⟨raw, answers⟩ := Frame.exists_answer answer
    obtain ⟨call, slot, rfl, same⟩ := (mem_unanswered_iff h).1 waits
    obtain ⟨m, v, asked, judged, -⟩ := (h.ends decodes answers slot same).judged
    exact ⟨m, v, _, asked, judged,
      h.receive_drains isOpen unlinked decodes (same ▸ answers) slot⟩
  · intro timer armed due
    obtain ⟨call, slot, -, same, -⟩ := sound.held_of_armed armed
    exact ⟨_, (mem_unanswered_iff h).2 ⟨call, slot, rfl, same⟩,
      h.expire_drains isOpen unlinked armed due slot same⟩
  · intro n t u rounds
    rw [← rounds.length]
    exact Nat.le_add_right ..

/-- A session with ten milliseconds for an answer and room for two more calls, which has lost its
transport while three calls are under way. -/
def stranded : Chronicle :=
  let c := opened 0 "CP-1" (.empty .v16 .chargePoint) ⟨10, .queue, 2, .standard⟩ .json "own"
    (.create true) 0
  (((c.send V16.heartbeat (.record [])).send V16.heartbeat (.record [])).send V16.heartbeat
    (.record [])).unlink

theorem Reachable.stranded : stranded.Reachable :=
  ((((Reachable.opened 0 "CP-1" (.empty .v16 .chargePoint) ⟨10, .queue, 2, .standard⟩ .json "own"
    (.create true) 0 ⟨by simp [Supervisor.create], .nil⟩ rfl).step (.send _ _)).step
      (.send _ _)).step (.send _ _)).step .unlink

/-- The first call is refused, and the other two cannot be transmitted. -/
theorem unlinked_fails_stranded : Chronicle.stranded.session.phase = .opened ∧
    Chronicle.stranded.session.linked = false ∧
    Chronicle.stranded.session.queued = [1, 2] ∧
    let refused := Chronicle.stranded.receive (Codec.json.encode (noRoom "own#1"))
    Drains Chronicle.stranded
      [.settled 0 (.error (.refused .internalError "no room" Json.empty))] refused ∧
    refused.log.settlements.map Prod.fst = [0, 1, 2] := by
  have read : Codec.json.decode (Codec.json.encode (noRoom "own#1")) = .ok (noRoom "own#1") :=
    Frame.json_readBy _ ⟨.empty, rfl⟩
  have waits : Chronicle.stranded.log.unanswered = [(0, "own#1")] := rfl
  obtain ⟨-, -, answered, -⟩ := Reachable.stranded.unlinked_fails rfl rfl
  obtain ⟨m, v, o, -, judged, drains⟩ := answered _ _ read (by simp [noRoom, Frame.kind]) 0
    (waits ▸ List.mem_cons_self)
  have refused : o = .error (.refused .internalError "no room" Json.empty) := by
    cases judged
    rfl
  refine ⟨rfl, rfl, rfl, refused ▸ drains, ?_⟩
  rw [drains.settlements]
  rfl

end Chronicle

end ChargeLink

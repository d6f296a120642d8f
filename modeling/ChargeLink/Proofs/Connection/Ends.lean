import ChargeLink.Proofs.Connection.Relay

/-!
# How a relay ends

Whichever task ends first, and whatever is noticed first, the session is closed
before the relay ends, unless another one is closing it: the relay does not wait for
that one. Else it matters only to what was written: a broken stream is not waited
for. But a session that was closed, or a process that shuts down, leaves the writing
task at work, and it ends with a farewell when nothing waits any more.

* `Relay.Step.decided`: why a relay ends, and what was written then.
* `Relay.Reachable.winds_up`: a relay ends with its session closed and everything settled, or
  leaves that to another one who is closing it.
* `Relay.Reachable.flushes`: nothing keeps it from its end once that is decided.
* `Relay.follows_settle`: what a connection does of itself is a run of a relay.
-/

namespace ChargeLink.Relay

variable {p q : Relay}

/-! ## Why it ends -/

/-- Whatever waited was written, or something has failed. -/
def Flushed (p : Relay) : Prop :=
  p.failed = true ∨ p.writer = some .sessionClosed

/-- The writing task has ended with all that waited written, unless something has failed, where it
has ended at all; and so it has where the relay has ended because the session was closed or the
process shuts down. -/
structure Decided (p : Relay) : Prop where
  writer : p.writer ≠ none → p.Flushed
  reader : p.reader ≠ some .sessionClosed
  closing : p.closing = some .sessionClosed → p.Flushed
  flushing : ∀ deadline, p.link.stage = .flushing .sessionClosed deadline → p.Flushed
  ended : ∀ reason, p.link.stage = .ended reason → reason = .sessionClosed ∨ reason = .shutdown →
    p.Flushed

namespace Decided

/-- The stage is the same, and the tasks go on or end for a reason. -/
theorem same (h : p.Decided) (stage : q.link.stage = p.link.stage) (mono : p.Flushed → q.Flushed)
    (writer : q.writer = p.writer ∨ q.Flushed)
    (reader : q.reader = p.reader ∨ q.reader ≠ some .sessionClosed)
    (closing : q.closing = p.closing) : q.Decided := by
  refine ⟨fun ended => ?_, ?_, fun why => mono (h.closing (closing ▸ why)), ?_, ?_⟩
  · rcases writer with same | flushed
    · exact mono (h.writer (same ▸ ended))
    · exact flushed
  · rcases reader with same | other
    · exact same ▸ h.reader
    · exact other
  · rw [stage]
    exact fun deadline flushing => mono (h.flushing deadline flushing)
  · rw [stage]
    exact fun reason ended why => mono (h.ended reason ended why)

/-- The session has been closed, or is left to another one. -/
theorem flush (h : p.Decided) {reason : Disconnect} (why : reason = .sessionClosed → p.Flushed) :
    (p.flush reason).Decided := by
  refine ⟨h.writer, h.reader, h.closing, fun deadline flushing => ?_, fun _ ended => by cases ended⟩
  have same : Stage.flushing reason _ = .flushing .sessionClosed deadline := flushing
  cases same
  exact why rfl

/-- The end is decided. -/
theorem decide (h : p.Decided) {reason : Disconnect}
    (why : reason = .sessionClosed → p.Flushed) : (p.decide reason).Decided := by
  by_cases isOpen : p.station.session.phase = .opened
  · rw [decide_of_open isOpen]
    have stage := Connection.stage_onStation p.connection fun s => s.act fun t => t.closing .start
    refine ⟨h.writer, h.reader, fun same => why (Option.some.inj same), fun deadline flushing => ?_,
      fun reason ended => ?_⟩
    · exact h.flushing deadline (stage.symm.trans flushing)
    · exact h.ended reason (stage.symm.trans ended)
  · rw [decide_of_ended isOpen]
    exact h.flush why

/-- The end has come. -/
theorem finish (h : p.Decided) {reason : Disconnect} (mono : p.Flushed → q.Flushed)
    (writer : q.writer = p.writer) (reader : q.reader = p.reader) (closing : q.closing = p.closing)
    (stage : q.link.stage = .ended reason)
    (why : reason = .sessionClosed ∨ reason = .shutdown → q.Flushed) : q.Decided := by
  refine ⟨fun ended => mono (h.writer (writer ▸ ended)), reader ▸ h.reader,
    fun why => mono (h.closing (closing ▸ why)), ?_, ?_⟩
  · rw [stage]
    intro _ flushing
    cases flushing
  · rw [stage]
    intro _ ended
    cases ended
    exact why

end Decided

/-- **A relay does not end before what waits is written,** unless something has failed or the stream
is broken. -/
theorem Step.decided (h : Step p q) (decided : p.Decided) : q.Decided := by
  cases h with
  | arrive | peer => exact decided.same rfl id (.inl rfl) (.inl rfl) rfl
  | use => exact decided.same (Connection.stage_onStation ..) id (.inl rfl) (.inl rfl) rfl
  | @read a =>
    cases a with
    | text s => exact decided.same (Connection.stage_onStation ..) id (.inl rfl) (.inl rfl) rfl
    | ping length => exact decided.same (Link.stage_deliver ..) id (.inl rfl) (.inl rfl) rfl
    | binary | pong => exact decided.same rfl id (.inl rfl) (.inl rfl) rfl
    | close | failure => exact decided.same rfl id (.inl rfl) (.inr nofun) rfl
  | readFails | streamEnds => exact decided.same rfl id (.inl rfl) (.inr nofun) rfl
  | write =>
    refine decided.same (Link.stage_deliver ..) (.imp_left fun failed => ?_) (.inl rfl) (.inl rfl)
      rfl
    exact Bool.or_eq_true_iff.2 (.inl failed)
  | sayFarewell =>
    exact decided.same (Link.stage_deliver ..) (fun _ => .inr rfl) (.inr (.inr rfl)) (.inl rfl) rfl
  | writeFails =>
    exact decided.same p.stage_breakOff (fun _ => .inl rfl) (.inr (.inl rfl)) (.inl rfl) rfl
  | farewellFails => exact decided.same rfl (fun _ => .inl rfl) (.inr (.inl rfl)) (.inl rfl) rfl
  | notice running undecided done =>
    refine decided.decide ?_
    rintro rfl
    rcases done with reader | writer
    · exact absurd reader decided.reader
    · exact .inr writer
  | signal => exact decided.decide nofun
  | closed running closing =>
    refine decided.flush ?_
    rintro rfl
    exact decided.closing closing
  | finish flushing done =>
    refine decided.finish id rfl rfl rfl rfl ?_
    rintro (rfl | rfl)
    · exact decided.flushing _ flushing
    · rcases done with ended | other
      · exact decided.writer ended
      · cases other
  | giveUp => exact decided.finish (fun _ => .inl rfl) rfl rfl rfl rfl fun _ => .inl rfl

/-! ## Runs -/

/-- What holds of every relay of a run. -/
structure Sound (p : Relay) : Prop where
  kept : p.Kept
  reads : p.Reads
  writes : p.Writes
  decided : p.Decided

theorem Step.sound (h : Step p q) (sound : p.Sound) : q.Sound :=
  ⟨h.kept sound.kept, h.reads sound.reads, h.writes sound.kept sound.writes,
    h.decided sound.decided⟩

theorem Reachable.sound (h : p.Reachable) : p.Sound := by
  induction h with
  | start number chargePointId registry config codec label loop now tally room =>
    have opened := Station.Reachable.opened number chargePointId registry config codec label loop now
      tally
    refine ⟨⟨opened, rfl, rfl, fun _ _ => rfl, fun mine => absurd rfl mine, ?_, nofun⟩, ?_,
      ⟨fun _ _ _ => rfl, nofun⟩, ?_⟩
    · exact fun stopped => absurd rfl stopped
    · exact ⟨[], List.nil_prefix, fun _ => rfl, rfl⟩
    · exact ⟨fun ended => absurd rfl ended, nofun, nofun, nofun, nofun⟩
  | step _ step ih => exact step.sound ih

/-- Once its session is closed, everything is settled. -/
theorem Reachable.settled (h : p.Reachable) (closed : p.station.session.phase = .closed) :
    p.station.Settled :=
  h.sound.kept.reachable.settled h.sound.kept.alive closed

/-- **A relay ends with everything settled,** or leaves that to another one. When it has ended, its
session is closed and every send that it was ever asked for has its outcome, unless another one is
about to close the session: as soon as that is done, it is the same. What its session was given are
the texts that have come, up to some point and in their order, and nothing else. And if it has ended
because the session was closed or because the process shuts down, and everything could be written in
time, then every text that the session has handed over was written, in their order, and one farewell
behind them. -/
theorem Reachable.winds_up (h : p.Reachable) :
    (∀ reason, p.link.stage = .ended reason →
      p.station.session.phase = .closed ∧ p.station.Settled ∨
      p.station.session.phase = .closing ∧ p.closing = none ∧
        ∀ q, Steps p q → q.station.session.phase = .closed → q.station.Settled) ∧
    p.fed <+: p.came.filterMap Arrival.text? ∧
    ∀ reason, p.link.stage = .ended reason → reason = .sessionClosed ∨ reason = .shutdown →
      p.failed = false → p.written = p.accepted.map .text ++ [.close] := by
  obtain ⟨kept, reads, writes, decided⟩ := h.sound
  refine ⟨fun reason ended => ?_, ?_, fun reason ended why fine => ?_⟩
  · obtain ⟨notOpen, mine⟩ := kept.stopped (by simp [ended])
    cases phase : p.station.session.phase with
    | opened => exact absurd phase notOpen
    | closing =>
      -- had the relay begun to close the session, it would have gone on until the end of it
      have another : p.closing = none := by
        by_contra begun
        rw [mine begun] at phase
        cases phase
      exact .inr ⟨rfl, another, fun q steps closed => (h.steps steps).settled closed⟩
    | closed => exact .inl ⟨rfl, h.settled phase⟩
  · obtain ⟨before, read, -, texts⟩ := reads
    rw [texts]
    exact read.filterMap _
  · rcases decided.ended reason ended why with failed | written
    · rw [failed] at fine
      cases fine
    · exact writes.all written fine

/-- Once its session is closed, the writing task writes what waits, and the relay ends. -/
theorem Reachable.flushes_closed (h : p.Reachable) {reason : Disconnect} {deadline : ℕ}
    (closed : p.station.session.phase = .closed)
    (flushing : p.link.stage = .flushing reason deadline) (takes : p.link.farewell = false)
    (fine : p.failed = false) :
    ∃ q, Steps p q ∧ q.link.stage = .ended reason ∧ q.failed = false := by
  have ends : ∀ {q : Relay}, q.link.stage = .flushing reason deadline → q.failed = false →
      q.writer ≠ none → ∃ r, Steps q r ∧ r.link.stage = .ended reason ∧ r.failed = false :=
    fun flushing fine done => ⟨_, .single (.finish flushing (.inl done)), rfl, fine⟩
  induction waits : p.link.outgoing generalizing p with
  | nil =>
    cases writer : p.writer with
    | some => exact ends flushing fine (by simp [writer])
    | none =>
      have kept := h.sound.kept
      have unlinked := (kept.reachable.stopped kept.alive closed).finished.unlinked
      have step : Step p p.sayFarewell :=
        .sayFarewell writer (Link.isEnded_of_flushing flushing) waits unlinked
      obtain ⟨q, steps, ended⟩ := ends (q := p.sayFarewell)
        ((Link.stage_deliver ..).trans flushing) (Bool.or_eq_false_iff.2 ⟨fine, takes⟩)
        (Option.some_ne_none _)
      exact ⟨q, .head step steps, ended⟩
  | cons text rest ih =>
    cases writer : p.writer with
    | some => exact ends flushing fine (by simp [writer])
    | none =>
      have step : Step p (p.write text rest) :=
        .write writer (Link.isEnded_of_flushing flushing) waits
      have stage : (p.write text rest).link.stage = .flushing reason deadline :=
        (Link.stage_deliver ..).trans flushing
      have takes' : (p.write text rest).link.farewell = false :=
        (Link.farewell_deliver ..).trans takes
      obtain ⟨q, steps, ended⟩ := ih (h.step step) closed stage takes'
        (Bool.or_eq_false_iff.2 ⟨fine, takes⟩) (Link.outgoing_deliver ..)
      exact ⟨q, .head step steps, ended⟩

/-- **Nothing keeps a relay from its end** once that is decided: whoever closes the session goes on
to do so, and the writing task writes what waits, one text after the other, and then a farewell. -/
theorem Reachable.flushes (h : p.Reachable) {reason : Disconnect} {deadline : ℕ}
    (flushing : p.link.stage = .flushing reason deadline) (takes : p.link.farewell = false)
    (fine : p.failed = false) :
    ∃ q, Steps p q ∧ q.link.stage = .ended reason ∧ q.failed = false := by
  obtain ⟨notOpen, -⟩ := h.sound.kept.stopped (by simp [flushing])
  cases phase : p.station.session.phase with
  | opened => exact absurd phase notOpen
  | closing =>
    have takes' : p.endClosing.link.farewell = false :=
      (Link.farewell_queue ..).trans ((Link.farewell_queue ..).trans takes)
    obtain ⟨q, later, ended⟩ := (h.steps p.steps_endClosing).flushes_closed
      (Station.closed_of_closing phase) (p.stage_endClosing.trans flushing) takes' fine
    exact ⟨q, p.steps_endClosing.trans later, ended⟩
  | closed => exact h.flushes_closed phase flushing takes fine

/-! ## Runs that end -/

/-- A relay around a session that accepts one call at a time, and has been asked for one. -/
def asked : Relay :=
  (start (.ofTurn (.openSession 0 "CP-1" (.empty .v16 .chargePoint) ⟨10, .reject, 1, .standard⟩ .json
    "own" (.create true) 0) .empty) none).onStation fun s =>
      s.issue 0 V16.heartbeat (.record []) false

/-- Its session is closed when the request has not been written yet. -/
def closed : Relay :=
  (asked.onStation fun s => s.act fun t => t.closing .start).endClosing

theorem Reachable.asked : asked.Reachable :=
  (Reachable.start 0 "CP-1" (.empty .v16 .chargePoint) ⟨10, .reject, 1, .standard⟩ .json "own" true 0
    .empty none).step (.use (.issue 0 V16.heartbeat (.record []) false List.not_mem_nil))

theorem Reachable.closed : closed.Reachable :=
  (Reachable.asked.step (.use (.closing .start))).steps (steps_endClosing _)

theorem winds_up_closed : ∃ p, Steps closed p ∧ p.link.stage = .ended .sessionClosed ∧
    p.station.Settled ∧ p.accepted.length = 1 ∧
    p.written = p.accepted.map .text ++ [.close] := by
  obtain ⟨text, waits⟩ : ∃ text, closed.link.outgoing = [text] := ⟨_, rfl⟩
  have write : Step closed (closed.write text []) := .write rfl rfl waits
  have farewell : Step (closed.write text []) (closed.write text []).sayFarewell :=
    .sayFarewell rfl rfl rfl rfl
  have notice : Step (closed.write text []).sayFarewell
      ((closed.write text []).sayFarewell.decide .sessionClosed) := .notice rfl rfl (.inr rfl)
  have steps := (((Relation.ReflTransGen.single write).tail farewell).tail notice).tail
    (.finish rfl (.inl (Option.some_ne_none _)))
  obtain ⟨settled, -, whole⟩ := (Reachable.closed.steps steps).winds_up
  rcases settled _ rfl with ⟨-, settled⟩ | ⟨closing, -⟩
  · exact ⟨_, steps, rfl, settled, rfl, whole _ rfl (.inl rfl) rfl⟩
  · cases closing

/-- Somebody has begun to close the session when the relay finds the stream broken: the relay ends
at once. -/
def deserted : Relay :=
  ({ asked.onStation fun s => s.act fun t => t.closing .start with
    reader := some .transportError }.decide .transportError).finish .transportError

/-- A second request has found the slot taken, and is to be sent again, when the relay finds the
stream broken. -/
def retrying : Relay :=
  { asked.onStation fun _ => asked.station.issue 1 V16.meterValues (.record
      [("connectorId", .int 1), ("transactionId", .int 7), ("meterValue", .list [])]) true with
    reader := some .transportError }

/-- The relay closes the session, and ends. -/
def exhausted : Relay :=
  ((retrying.decide .transportError).endClosing.flush .transportError).finish .transportError

theorem Reachable.deserted : deserted.Reachable := by
  have broken := (Reachable.asked.step (.use (.closing .start))).step (.readFails rfl)
  exact (broken.step (.notice rfl rfl (.inl rfl))).step (finish_flush _)

theorem Reachable.exhausted : exhausted.Reachable := by
  have refused := Reachable.asked.step (.use (.issue 1 V16.meterValues (.record
    [("connectorId", .int 1), ("transactionId", .int 7), ("meterValue", .list [])]) true
      (by decide +kernel)))
  have broken : retrying.Reachable := refused.step (.readFails rfl)
  have begun : Step retrying (retrying.decide .transportError) := .notice rfl rfl (.inl rfl)
  have closed : Step (retrying.decide .transportError).endClosing
      ((retrying.decide .transportError).endClosing.flush .transportError) :=
    .closed (by decide +kernel) (by decide +kernel) (by decide +kernel)
  exact (((broken.step begun).steps (steps_endClosing _)).step closed).step (finish_flush _)

/-- **A relay may end with something open.** The session is only about to be closed, and its call
has no outcome yet; or a caller is not told before the pause is over. -/
theorem ends_unsettled :
    (deserted.Reachable ∧ deserted.link.stage = .ended .transportError ∧
      deserted.station.session.phase = .closing ∧
      deserted.station.callers.map (·.state) = [.waiting 0]) ∧
    exhausted.Reachable ∧ exhausted.link.stage = .ended .transportError ∧
      exhausted.station.session.phase = .closed ∧
      exhausted.station.callers.map (·.state) = [.done, .pausing] :=
  ⟨⟨.deserted, rfl, rfl, by decide +kernel⟩, .exhausted, rfl, by decide +kernel, by decide +kernel⟩

/-! ## The steps of a connection -/

/-- No task has ended unnoticed, and the session has not been closed so far. -/
structure Plain (p : Relay) : Prop where
  reader : p.link.stage = .running → p.reader = none
  closing : p.link.stage = .running → p.closing = none
  writer : p.link.isEnded = false → p.writer = none

/-- A relay may come to be at a connection, with no task that has ended unnoticed. -/
def Comes (p : Relay) (c : Connection) : Prop :=
  ∃ q, Steps p q ∧ q.connection = c ∧ q.Plain

theorem Comes.of_steps (h : Steps p q) {c : Connection} (comes : q.Comes c) : p.Comes c := by
  obtain ⟨r, later, same, plain⟩ := comes
  exact ⟨r, h.trans later, same, plain⟩

/-- Who has ended is plain. -/
theorem plain_of_ended {reason : Disconnect} (ended : p.link.stage = .ended reason) : p.Plain := by
  refine ⟨?_, ?_, ?_⟩
  · simp [ended]
  · simp [ended]
  · simp [Link.isEnded, ended]

/-- What a station does in two parts is handed over as if it did it at once. -/
theorem onStation_onStation (c : Connection) {s t : Station} (first : c.station.notes <+: s.notes)
    (second : s.notes <+: t.notes) :
    (c.onStation fun _ => s).onStation (fun _ => t) = c.onStation fun _ => t := by
  obtain ⟨x, one⟩ := first
  obtain ⟨y, other⟩ := second
  have both : t.notes = c.station.notes ++ (x ++ y) := by
    rw [← other, ← one, List.append_assoc]
  have added : s.notes.drop c.station.notes.length = x := by rw [← one, List.drop_left]
  have later : t.notes.drop s.notes.length = y := by rw [← other, List.drop_left]
  have all : t.notes.drop c.station.notes.length = x ++ y := by rw [both, List.drop_left]
  simp only [Connection.onStation, Link.queue_queue, added, later, all]
  exact congrArg (fun texts => Connection.mk t (c.link.queue texts)) List.filterMap_append.symm

/-- A session that is not open is not closed again. -/
theorem onStation_close_of_ended {c : Connection} (ended : c.station.session.phase ≠ .opened) :
    (c.onStation fun s => s.close.2) = c := by
  have same : c.station.close.2 = c.station := by rw [Station.close_of_not_open ended]
  simp only [Connection.onStation, same, List.drop_length]
  exact congrArg (Connection.mk c.station) (Link.queue_nil _)

/-- When the session has been closed, what waits is written as a connection does. -/
theorem comes_windUp {reason : Disconnect} (writer : p.writer = none)
    (step : Step p (p.flush reason)) : p.Comes (p.connection.windUp reason) := by
  by_cases broken : reason = .transportError
  · subst broken
    have flushing : (p.flush .transportError).link.stage = .flushing .transportError _ := rfl
    exact ⟨_, .tail (.single step) (.finish flushing (.inr rfl)), rfl, plain_of_ended rfl⟩
  · have same : (p.flush reason).connection = p.connection.windUp reason := (if_neg broken).symm
    exact ⟨_, .single step, same, ⟨nofun, nofun, fun _ => writer⟩⟩

/-- What is decided is what a connection comes to that stops. -/
theorem comes_stop (kept : p.Kept) {reason : Disconnect} (running : p.link.stage = .running)
    (writer : p.writer = none) (step : Step p (p.decide reason)) :
    p.Comes (p.connection.stop reason) := by
  by_cases isOpen : p.station.session.phase = .opened
  · -- the relay begins to close the session, and nobody else does anything until it has done so
    rw [decide_of_open isOpen] at step
    set begun : Relay :=
      { p.onStation fun s => s.act fun t => t.closing .start with closing := some reason }
    set failed := begun.onStation fun s => s.act fun t => t.closing .abandon
    have stage : begun.endClosing.link.stage = .running :=
      begun.stage_endClosing.trans ((Connection.stage_onStation ..).trans running)
    have station : begun.endClosing.station = p.station.close.2 :=
      (Station.close_of_open isOpen).symm
    have closed : begun.endClosing.station.session.phase = .closed :=
      station ▸ p.station.closed_close isOpen
    have same : begun.endClosing.connection = p.connection.onStation fun s => s.close.2 := by
      have kept₁ : begun.Kept := step.kept kept
      have kept₂ : failed.Kept := Step.kept (.use (.closing .abandon)) kept₁
      have first : p.station.Step begun.station := .closing .start kept.alive
      have second : begun.station.Step failed.station := .closing .abandon kept₁.alive
      have third : failed.station.Step begun.endClosing.station := .closing .finish kept₂.alive
      have two := first.notes_prefix.trans second.notes_prefix
      calc begun.endClosing.connection
        _ = ((p.connection.onStation fun _ => begun.station).onStation fun _ =>
              failed.station).onStation fun _ => begun.endClosing.station := rfl
        _ = (p.connection.onStation fun _ => failed.station).onStation fun _ =>
              begun.endClosing.station := by
          rw [onStation_onStation p.connection first.notes_prefix second.notes_prefix]
        _ = p.connection.onStation fun _ => begun.endClosing.station :=
          onStation_onStation p.connection two third.notes_prefix
        _ = p.connection.onStation fun s => s.close.2 :=
          congrArg (fun t => p.connection.onStation fun _ => t) station
    refine .of_steps (.trans (.single step) begun.steps_endClosing) ?_
    rw [Connection.stop, ← same]
    exact comes_windUp writer (.closed stage rfl closed)
  · rw [decide_of_ended isOpen] at step
    rw [Connection.stop, onStation_close_of_ended isOpen]
    exact comes_windUp writer step

theorem finish_queue (l : Link) (texts : List String) (reason : Disconnect) :
    (l.queue texts).finish reason = l.finish reason := by
  unfold Link.queue
  split <;> rfl

/-- Once everything is written and the session is closed, a relay ends like a connection. -/
theorem comes_conclude (kept : p.Kept) (plain : p.link.stage = .running → p.closing = none)
    (written : p.writer = some .sessionClosed) (going : p.link.isEnded = false) :
    p.Comes p.connection.conclude := by
  have done : p.writer ≠ none := by simp [written]
  cases stage : p.link.stage with
  | running =>
    -- there is nothing left to close
    have ended : p.station.session.phase ≠ .opened := by simp [kept.left written]
    have step : Step p (p.flush .sessionClosed) := by
      rw [← decide_of_ended ended]
      exact .notice stage (plain stage) (.inr written)
    refine ⟨_, .tail (.single step) (.finish rfl (.inl done)), ?_, plain_of_ended rfl⟩
    rw [Connection.conclude, stage]
    rfl
  | flushing reason deadline =>
    refine ⟨_, .single (.finish stage (.inl done)), ?_, plain_of_ended rfl⟩
    rw [Connection.conclude, stage]
    rfl
  | ended reason => simp [Link.isEnded, stage] at going

/-- A message is taken in as a connection does. -/
theorem comes_read (kept : p.Kept) (plain : p.Plain) (running : p.link.stage = .running)
    {a : Arrival} {rest : List Arrival} (next : p.link.arrivals = a :: rest) :
    p.Comes ((p.connection.onLink fun l => { l with arrivals := rest }).takeIn a) := by
  have going := Link.isEnded_of_running running
  have step : Step p (p.read a rest) := .read (plain.reader running) going next
  have reader := plain.reader running
  have closing := plain.closing running
  have writer := plain.writer going
  have kept := step.kept kept
  cases a with
  | text s => exact ⟨_, .single step, rfl, fun _ => reader, fun _ => closing, fun _ => writer⟩
  | ping length => exact ⟨_, .single step, rfl, fun _ => reader, fun _ => closing, fun _ => writer⟩
  | binary | pong =>
    exact ⟨_, .single step, rfl, fun _ => reader, fun _ => closing, fun _ => writer⟩
  | close =>
    exact .of_steps (.single step) (comes_stop (p := p.read .close rest) kept running writer
      (.notice running closing (.inl rfl)))
  | failure =>
    exact .of_steps (.single step) (comes_stop (p := p.read .failure rest) kept running writer
      (.notice running closing (.inl rfl)))

/-- **What a connection does is a run of a relay.** With nothing to write, it fails to write only
when the session has been closed. -/
theorem follows_step (kept : p.Kept) (plain : p.Plain) {x : Connection.Step} {c : Connection}
    (h : p.connection.step? x = some c)
    (writes : x = .writeFailure → p.station.session.phase ≠ .closing) : p.Comes c := by
  cases x with
  | read =>
    simp only [Connection.step?] at h
    split at h
    · rename_i running next
      cases h
      exact comes_read kept plain running next
    · cases h
  | write =>
    simp only [Connection.step?] at h
    split at h
    · cases h
    rename_i going
    have going : p.link.isEnded = false := by simpa using going
    have writer := plain.writer going
    unfold Connection.write? at h
    split at h
    · rename_i text rest next
      split at h
      · cases h
        have stage := Link.stage_deliver { p.link with outgoing := rest } (.text text)
        exact ⟨_, .single (.write writer going next), rfl,
          fun running => plain.reader ((stage _).symm.trans running),
          fun running => plain.closing ((stage _).symm.trans running), fun _ => writer⟩
      · cases h
    · rename_i nothing
      split at h
      · rename_i fits
        cases h
        simp only [Bool.and_eq_true, Bool.not_eq_true'] at fits
        have step : Step p p.sayFarewell := .sayFarewell writer going nothing fits.1
        exact .of_steps (.single step) (comes_conclude (step.kept kept)
          (fun running => plain.closing ((Link.stage_deliver ..).symm.trans running)) rfl
          ((Link.isEnded_deliver ..).trans going))
      · cases h
  | writeFailure =>
    simp only [Connection.step?] at h
    split at h
    · rename_i running
      cases h
      have going := Link.isEnded_of_running running
      have step : Step p { p with reader := some .transportError } :=
        .readFails (plain.reader running)
      exact .of_steps (.single step) (comes_stop (step.kept kept) running (plain.writer going)
        (.notice running (plain.closing running) (.inl rfl)))
    · rename_i reason deadline flushing
      cases h
      have going := Link.isEnded_of_flushing flushing
      have writer := plain.writer going
      have closed : p.station.session.phase = .closed := by
        obtain ⟨notOpen, -⟩ := kept.stopped (by simp [flushing])
        have notClosing := writes rfl
        cases phase : p.station.session.phase with
        | opened => exact absurd phase notOpen
        | closing => exact absurd phase notClosing
        | closed => rfl
      have unlinked := (kept.reachable.stopped kept.alive closed).finished.unlinked
      cases waits : p.link.outgoing with
      | nil =>
        exact ⟨_, .tail (.single (.farewellFails writer going waits unlinked))
          (.finish flushing (.inl (Option.some_ne_none _))), rfl, plain_of_ended rfl⟩
      | cons text rest =>
        -- the transport is gone already
        have same : { p.station with session := { p.station.session with linked := false } } =
            p.station := by
          rw [← unlinked]
        have stage : p.breakOff.link.stage = .flushing reason deadline :=
          p.stage_breakOff.trans flushing
        refine ⟨_, .tail (.single (.writeFails writer going waits))
          (.finish stage (.inl (Option.some_ne_none _))), ?_, plain_of_ended rfl⟩
        show (⟨_, (p.link.queue _).finish reason⟩ : Connection) = ⟨p.station, p.link.finish reason⟩
        rw [finish_queue]
        exact congrArg (Connection.mk · _) same
    · cases h
  | signal =>
    simp only [Connection.step?] at h
    split at h
    · rename_i running
      cases h
      have writer := plain.writer (Link.isEnded_of_running running)
      exact comes_stop kept running writer (.signal running (plain.closing running))
    · cases h
  | giveUp =>
    simp only [Connection.step?] at h
    split at h
    · rename_i flushing
      split at h
      · rename_i late
        cases h
        have writer := plain.writer (Link.isEnded_of_flushing flushing)
        exact ⟨_, .single (.giveUp flushing writer late), rfl, plain_of_ended rfl⟩
      · cases h
    · cases h

/-- So is what a connection does next, -/
theorem follows_next (kept : p.Kept) (plain : p.Plain) {signalled : Bool} {c : Connection}
    (h : p.connection.next? signalled = some c) : p.Comes c := by
  unfold Connection.next? at h
  simp only [Option.orElse_eq_orElse, Option.orElse_eq_or, Option.or_eq_some_iff,
    Option.map_eq_some_iff] at h
  rcases h with made | ⟨-, ⟨w, now, rfl⟩ | ⟨-, made | ⟨-, made | ⟨-, made⟩⟩⟩⟩
  · exact follows_step kept plain made fun same => by cases same
  · have work : p.station.work? 0 = some w := by simp [Station.work?, now]
    have stage := Connection.stage_onStation p.connection fun s => s.perform w
    refine ⟨_, .single (.use (.work 0 work)), rfl, ?_, ?_, ?_⟩
    · exact fun running => plain.reader (stage.symm.trans running)
    · exact fun running => plain.closing (stage.symm.trans running)
    · exact fun going => plain.writer ((Link.isEnded_queue ..).symm.trans going)
  · exact follows_step kept plain made fun same => by cases same
  · split at made
    · exact follows_step kept plain made fun same => by cases same
    · cases made
  · exact follows_step kept plain made fun same => by cases same

theorem Steps.kept (h : Steps p q) (kept : p.Kept) : q.Kept := by
  induction h with
  | refl => exact kept
  | tail _ step ih => exact step.kept ih

/-- and all that it does for a while. -/
theorem follows_settleFor (signalled : Bool) : ∀ (fuel : ℕ) {p : Relay}, p.Kept → p.Plain →
    p.Comes (p.connection.settleFor signalled fuel)
  | 0, p, _, plain => ⟨p, .refl, rfl, plain⟩
  | fuel + 1, p, kept, plain => by
    unfold Connection.settleFor
    split
    · rename_i next
      obtain ⟨q, steps, rfl, plain'⟩ := follows_next kept plain next
      exact .of_steps steps (follows_settleFor signalled fuel (steps.kept kept) plain')
    · exact ⟨p, .refl, rfl, plain⟩

/-- **What a connection does of itself is a run of a relay.** -/
theorem follows_settle (kept : p.Kept) (plain : p.Plain) (signalled : Bool) :
    p.Comes (p.connection.settle signalled) :=
  follows_settleFor signalled _ kept plain

end ChargeLink.Relay

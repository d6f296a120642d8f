import ChargeLink.Proofs.Server.Connections

/-!
# Relays

A connection reads in one task and writes in another, and a third one waits until
either of them ends or the process shuts down. `Connection.step?` takes the end of a
task and the notice of it for one. A relay is a connection where they are apart:
what has ended is noticed some time later, and until then the other task goes on and
the session is used; and where several things could be noticed, any of them may be.
Closing the session takes the relay several steps, and others who hold the session
may close it too: whoever finds it open does so, and the others go on at once. What
a connection does is among the runs of a relay (`Relay.follows_step`), so what holds
of all relays holds of it.

* `Relay.Step`: what may happen to a relay.
* `Relay.Step.kept`: when the end is decided, the session is closed, or another one is about to
  close it.
* `Relay.Step.reads`: what the session is given is what has come, up to some point.
* `Relay.Step.writes`: what the session hands over is written, or waits.
-/

namespace ChargeLink

/-- The text that has come, if it is one. -/
def Arrival.text? : Arrival → Option String
  | .text s => some s
  | _ => none

namespace Link

theorem isEnded_of_running {l : Link} (running : l.stage = .running) : l.isEnded = false := by
  simp [isEnded, running]

theorem isEnded_of_flushing {l : Link} {reason : Disconnect} {deadline : ℕ}
    (flushing : l.stage = .flushing reason deadline) : l.isEnded = false := by
  simp [isEnded, flushing]

variable (l : Link)

@[simp] theorem isEnded_queue (texts : List String) : (l.queue texts).isEnded = l.isEnded := by
  simp [isEnded]

@[simp] theorem arrivals_queue (texts : List String) : (l.queue texts).arrivals = l.arrivals := by
  unfold queue
  split <;> rfl

@[simp] theorem farewell_queue (texts : List String) : (l.queue texts).farewell = l.farewell := by
  unfold queue
  split <;> rfl

@[simp] theorem queue_nil : l.queue [] = l := by
  simp [queue]

theorem queue_queue (texts later : List String) :
    (l.queue texts).queue later = l.queue (texts ++ later) := by
  cases stage : l.stage <;> simp [queue, isEnded, stage]

@[simp] theorem isEnded_deliver (d : Delivery) (size : ℕ) :
    (l.deliver d size).isEnded = l.isEnded := by
  simp [isEnded]

@[simp] theorem arrivals_deliver (d : Delivery) (size : ℕ) :
    (l.deliver d size).arrivals = l.arrivals := by
  unfold deliver
  split <;> rfl

@[simp] theorem farewell_deliver (d : Delivery) (size : ℕ) :
    (l.deliver d size).farewell = l.farewell := by
  unfold deliver
  split <;> rfl

@[simp] theorem outgoing_deliver (d : Delivery) (size : ℕ) :
    (l.deliver d size).outgoing = l.outgoing := by
  unfold deliver
  split <;> rfl

end Link

/-! ## Stations and their texts -/

namespace Station

/-- What others than the tasks of a connection may do with its station: anything but giving it a
text of the peer. Steps of closing are among it, whoever takes them. -/
inductive Use : Station → Station → Prop
  | issue {s} (number : ℕ) (m : Message) (v : Value) (retry : Bool)
      (fresh : number ∉ s.callers.map Caller.number) : Use s (s.issue number m v retry)
  | closing {s} (step : ClosingStep) : Use s (s.act fun t => t.closing step)
  | takeUp {s} : Use s (s.act Turn.takeUp)
  | handle {s} : Use s (s.act Turn.handle)
  | forget {s} (number : ℕ) : Use s (s.forget number)
  | work {s w} (limit : ℕ) (next : s.work? limit = some w) : Use s (s.perform w)
  | pass {s} (time : ℕ) (later : s.now ≤ time) (idle : s.work? time = none) :
      Use s { s with now := time }
  | retally {s} (tally : Tally) : Use s { s with tally }

variable {s t : Station}

theorem Use.step (h : Use s t) (alive : s.gone = false) : Step s t := by
  cases h with
  | issue number m v retry fresh => exact .issue number m v retry alive fresh
  | closing step => exact .closing step alive
  | takeUp => exact .takeUp alive
  | handle => exact .handle alive
  | forget number => exact .forget number
  | work limit next => exact .work limit next
  | pass time later idle => exact .pass time later idle
  | retally tally => exact .retally tally

theorem Use.deed (h : Use s t) : Deed s t := by
  cases h with
  | issue number m v retry fresh => exact .issue number m v retry fresh
  | closing step => exact .closing step
  | takeUp => exact .takeUp
  | handle => exact .handle
  | forget number => exact .forget number
  | work limit next => exact .work limit next
  | pass time later idle => exact .pass time later idle
  | retally tally => exact .retally tally

/-- What does the same whatever notes there are only adds to them. -/
theorem notes_prefix {f : Station → Station}
    (restores : ∀ (u : Station) (taken : List Note),
      f (u.restore taken) = (f u).restore taken) (s : Station) : s.notes <+: (f s).notes := by
  have bare : restore s.notes { s with notes := [] } = s := by simp [restore]
  have notes := congrArg Station.notes (restores { s with notes := [] } s.notes)
  rw [bare] at notes
  exact ⟨_, notes.symm⟩

/-- Notes are only added. -/
theorem Step.notes_prefix (h : Step s t) : s.notes <+: t.notes := by
  cases h with
  | issue number m v retry =>
    exact Station.notes_prefix (f := fun u => u.issue number m v retry)
      (fun _ _ => issue_restore ..) s
  | receive text =>
    exact Station.notes_prefix (f := fun u => u.act fun t => t.receive text)
      (fun _ _ => act_restore _) s
  | unlink =>
    exact Station.notes_prefix (f := fun u => u.act Turn.unlink) (fun _ _ => act_restore _) s
  | closing step =>
    exact Station.notes_prefix (f := fun u => u.act fun t => t.closing step)
      (fun _ _ => act_restore _) s
  | takeUp =>
    exact Station.notes_prefix (f := fun u => u.act Turn.takeUp) (fun _ _ => act_restore _) s
  | handle =>
    exact Station.notes_prefix (f := fun u => u.act Turn.handle) (fun _ _ => act_restore _) s
  | @work w =>
    exact Station.notes_prefix (f := fun u => u.perform w) (fun _ _ => perform_restore w) s
  | forget | release | pass | renumber | retally => exact List.prefix_rfl

/-- The texts that a station sends are those among its new notes. -/
theorem Step.texts (h : Step s t) : Station.texts t.notes =
    Station.texts s.notes ++ Station.texts (t.notes.drop s.notes.length) := by
  obtain ⟨later, same⟩ := h.notes_prefix
  rw [← same, List.drop_left]
  exact List.filterMap_append

/-- A station that has stopped sends none. -/
theorem Step.texts_of_stopped (h : Step s t) (stopped : s.Stopped) :
    Station.texts (t.notes.drop s.notes.length) = [] := by
  obtain ⟨later, same, silent, -⟩ := (stopped.step h).notes
  rw [same, List.drop_left]
  exact silent

end Station

/-! ## What may happen to a relay -/

/-- A connection with its tasks, and the record of what has come and what was written. -/
structure Relay where
  connection : Connection
  /-- Why nothing more is read, once that is so. -/
  reader : Option Disconnect
  /-- Why nothing more is written, once that is so. -/
  writer : Option Disconnect
  /-- Why the relay has begun to close the session, if it is the one to close it. -/
  closing : Option Disconnect
  /-- All that has come from the peer, the oldest first. -/
  came : List Arrival
  /-- The texts that the session was given, the oldest first. -/
  fed : List String
  /-- What the peer has got from the writing task, the oldest first. -/
  written : List Delivery
  /-- Whether something could not be written, or not in time. -/
  failed : Bool

namespace Relay

/-- The station. -/
abbrev station (p : Relay) : Station := p.connection.station

/-- The link to the peer. -/
abbrev link (p : Relay) : Link := p.connection.link

/-- The texts that the session has handed over to be written. -/
def accepted (p : Relay) : List String :=
  Station.texts p.station.notes

/-- A relay around a station and a fresh link, with both tasks at work. -/
def start (station : Station) (room : Option ℕ) : Relay :=
  ⟨⟨station, .create room⟩, none, none, none, [], [], [], false⟩

/-- Lets the station do something; the texts it sends wait to be written. -/
def onStation (p : Relay) (f : Station → Station) : Relay :=
  { p with connection := p.connection.onStation f }

/-- Changes the link. -/
def onLink (p : Relay) (f : Link → Link) : Relay :=
  { p with connection := p.connection.onLink f }

/-- Something comes from the peer. -/
def arrive (p : Relay) (a : Arrival) : Relay :=
  { p with connection := p.connection.arrive a, came := p.came ++ [a] }

/-- Takes the next of what has come. -/
def read (p : Relay) (a : Arrival) (rest : List Arrival) : Relay :=
  let p := p.onLink fun l => { l with arrivals := rest }
  match a with
  | .text s => { p.onStation fun st => st.act fun t => t.receive s with fed := p.fed ++ [s] }
  | .ping length => p.onLink fun l => l.deliver (.pong length) (messageSize length)
  | .binary => p
  | .pong => p
  | .close => { p.onLink fun l => { l with farewell := true } with reader := some .peerClosed }
  | .failure => { p with reader := some .transportError }

/-- Writes something. A peer that has said farewell does not take it. -/
def put (p : Relay) (d : Delivery) (size : ℕ) : Relay :=
  { p.onLink fun l => l.deliver d size with
    written := if p.link.farewell then p.written else p.written ++ [d]
    failed := p.failed || p.link.farewell }

/-- Writes the next text. -/
def write (p : Relay) (text : String) (rest : List String) : Relay :=
  (p.onLink fun l => { l with outgoing := rest }).put (.text text) (textSize text)

/-- Writes the farewell behind the last text, and ends. -/
def sayFarewell (p : Relay) : Relay :=
  { p.put .close (messageSize 0) with writer := some .sessionClosed }

/-- The next text cannot be written. The writing task ends, and the session has no transport. -/
def breakOff (p : Relay) : Relay :=
  { (p.onStation fun s => s.act Turn.unlink).onLink fun l => { l with outgoing := [] } with
    writer := some .transportError
    failed := true }

/-- The relay has done with closing the session, and what waits may still be written. -/
def flush (p : Relay) (reason : Disconnect) : Relay :=
  p.onLink fun l => { l with stage := .flushing reason (p.station.now + flushTimeout) }

/-- The end is decided. If the session is open, the relay begins to close it; else another one does
so or has done so, and the relay goes on. -/
def decide (p : Relay) (reason : Disconnect) : Relay :=
  if p.station.session.phase = .opened then
    { p.onStation fun s => s.act fun t => t.closing .start with closing := some reason }
  else p.flush reason

/-- Whoever has begun to close the session goes on to the end of it. -/
def endClosing (p : Relay) : Relay :=
  (p.onStation fun s => s.act fun t => t.closing .abandon).onStation
    fun s => s.act fun t => t.closing .finish

/-- The end has come. -/
def finish (p : Relay) (reason : Disconnect) : Relay :=
  p.onLink fun l => l.finish reason

/-- What may happen to a relay. -/
inductive Step : Relay → Relay → Prop
  | arrive {p} (a : Arrival) : Step p (p.arrive a)
  /-- The peer takes more or less, and what it has got is looked at. -/
  | peer {p} (room : Option ℕ) (delivered : List Delivery) :
      Step p (p.onLink fun l => { l with room, delivered })
  | use {p t} (use : p.station.Use t) : Step p (p.onStation fun _ => t)
  /-- The next of what has come is read, even if the end is decided: whoever is told to stop may have
  begun to read. -/
  | read {p a rest} (reads : p.reader = none) (going : p.link.isEnded = false)
      (next : p.link.arrivals = a :: rest) : Step p (p.read a rest)
  /-- The reading task finds the stream broken, whatever has come. -/
  | readFails {p} (reads : p.reader = none) : Step p { p with reader := some .transportError }
  /-- The reading task finds that nothing more will come. -/
  | streamEnds {p} (reads : p.reader = none) (nothing : p.link.arrivals = []) :
      Step p { p with reader := some .peerClosed }
  | write {p text rest} (writes : p.writer = none) (going : p.link.isEnded = false)
      (next : p.link.outgoing = text :: rest) : Step p (p.write text rest)
  | sayFarewell {p} (writes : p.writer = none) (going : p.link.isEnded = false)
      (nothing : p.link.outgoing = []) (unlinked : p.station.session.linked = false) :
      Step p p.sayFarewell
  | writeFails {p text rest} (writes : p.writer = none) (going : p.link.isEnded = false)
      (next : p.link.outgoing = text :: rest) : Step p p.breakOff
  /-- The farewell cannot be written, and the writing task ends all the same. -/
  | farewellFails {p} (writes : p.writer = none) (going : p.link.isEnded = false)
      (nothing : p.link.outgoing = []) (unlinked : p.station.session.linked = false) :
      Step p { p with writer := some .sessionClosed, failed := true }
  /-- One of the tasks that have ended is noticed. -/
  | notice {p reason} (running : p.link.stage = .running) (undecided : p.closing = none)
      (done : p.reader = some reason ∨ p.writer = some reason) : Step p (p.decide reason)
  | signal {p} (running : p.link.stage = .running) (undecided : p.closing = none) :
      Step p (p.decide .shutdown)
  /-- The relay has closed the session. -/
  | closed {p reason} (running : p.link.stage = .running) (closing : p.closing = some reason)
      (closed : p.station.session.phase = .closed) : Step p (p.flush reason)
  /-- The writing task has come to its end, or is not waited for as the stream is broken. -/
  | finish {p reason deadline} (flushing : p.link.stage = .flushing reason deadline)
      (done : p.writer ≠ none ∨ reason = .transportError) : Step p (p.finish reason)
  /-- The writing task is not waited for any longer. -/
  | giveUp {p reason deadline} (flushing : p.link.stage = .flushing reason deadline)
      (writes : p.writer = none) (late : deadline ≤ p.station.now) :
      Step p { p.finish reason with failed := true }

/-- A broken stream is not waited for. -/
theorem finish_flush (p : Relay) :
    Step (p.flush .transportError) ((p.flush .transportError).finish .transportError) :=
  .finish rfl (.inr rfl)

/-- The stage is no matter of the writing task, -/
theorem stage_breakOff (p : Relay) : p.breakOff.link.stage = p.link.stage :=
  Connection.stage_onStation p.connection fun s => s.act Turn.unlink

/-- nor of closing the session. -/
theorem stage_endClosing (p : Relay) : p.endClosing.link.stage = p.link.stage :=
  (Connection.stage_onStation ..).trans (Connection.stage_onStation ..)

/-- The relay `q` may follow `p` after any number of steps. -/
abbrev Steps : Relay → Relay → Prop :=
  Relation.ReflTransGen Step

/-- The relays of all runs, each around a session that has just been opened. -/
inductive Reachable : Relay → Prop
  | start (number : ℕ) (chargePointId : String) (registry : Registry) (config : SessionConfig)
      (codec : Codec) (label : String) (loop : Bool) (now : ℕ) (tally : Tally)
      (room : Option ℕ) :
      Reachable (start (.ofTurn (.openSession number chargePointId registry config codec label
        (.create loop) now) tally) room)
  | step {p q} : Reachable p → Step p q → Reachable q

theorem steps_endClosing (p : Relay) : Steps p p.endClosing :=
  .tail (.single (.use (.closing .abandon))) (.use (.closing .finish))

theorem Reachable.steps {p q : Relay} (hp : p.Reachable) (h : Steps p q) : q.Reachable := by
  induction h with
  | refl => exact hp
  | tail _ step ih => exact ih.step step

variable {p q : Relay}

/-! ## The session -/

theorem decide_of_open (isOpen : p.station.session.phase = .opened) (reason : Disconnect) :
    p.decide reason =
      { p.onStation fun s => s.act fun t => t.closing .start with closing := some reason } :=
  if_pos isOpen

theorem decide_of_ended (ended : p.station.session.phase ≠ .opened) (reason : Disconnect) :
    p.decide reason = p.flush reason :=
  if_neg ended

/-- The session is one of a run. It has its transport until it is closed or a text could not be
written. Once the end is decided, it is not open, and it is closed if the relay is the one to close
it. -/
structure Kept (p : Relay) : Prop where
  reachable : p.station.Reachable
  alive : p.station.gone = false
  held : p.station.held = true
  linked : p.station.session.phase ≠ .closed → p.writer = none →
    p.station.session.linked = true
  begun : p.closing ≠ none → p.station.session.phase ≠ .opened
  stopped : p.link.stage ≠ .running → p.station.session.phase ≠ .opened ∧
    (p.closing ≠ none → p.station.session.phase = .closed)
  left : p.writer = some .sessionClosed → p.station.session.phase = .closed

namespace Kept

/-- Nothing happens to the station. -/
theorem same (h : p.Kept) (station : q.station = p.station) (closing : q.closing = p.closing)
    (writer : q.writer = none → p.writer = none)
    (left : q.writer = some .sessionClosed → p.station.session.phase = .closed)
    (stage : q.link.stage = p.link.stage ∨ p.link.stage ≠ .running) : q.Kept := by
  refine ⟨station ▸ h.reachable, station ▸ h.alive, station ▸ h.held, ?_, ?_, ?_, station ▸ left⟩
  · rw [station]
    exact fun going none => h.linked going (writer none)
  · rw [station, closing]
    exact h.begun
  · rw [station, closing]
    intro ended
    rcases stage with same | stopped
    · exact h.stopped (same ▸ ended)
    · exact h.stopped stopped

/-- The station does something. -/
theorem onward (h : p.Kept) (step : p.station.Step q.station)
    (carries : p.station.Carries q.station) (writer : q.writer = p.writer)
    (closing : q.closing = p.closing) (stage : q.link.stage = p.link.stage) : q.Kept := by
  refine ⟨h.reachable.step step, carries.gone.trans h.alive, carries.held.trans h.held, ?_, ?_, ?_,
    fun done => carries.closed (h.left (writer ▸ done))⟩
  · intro going none
    have before := h.linked (fun closed => going (carries.closed closed)) (writer ▸ none)
    exact (carries.linked going).trans before
  · exact fun mine isOpen => h.begun (closing ▸ mine) (carries.isOpen isOpen)
  · intro ended
    obtain ⟨notOpen, mine⟩ := h.stopped (stage ▸ ended)
    exact ⟨fun isOpen => notOpen (carries.isOpen isOpen),
      fun begun => carries.closed (mine (closing ▸ begun))⟩

/-- A session whose transport is gone has been closed, while the writing task is at work. -/
theorem closed (h : p.Kept) (writes : p.writer = none)
    (unlinked : p.station.session.linked = false) : p.station.session.phase = .closed := by
  by_contra going
  rw [h.linked going writes] at unlinked
  cases unlinked

/-- The relay goes on when it has closed the session, or another one is to do so. -/
theorem flush (h : p.Kept) (ended : p.station.session.phase ≠ .opened)
    (mine : p.closing ≠ none → p.station.session.phase = .closed) (reason : Disconnect) :
    (p.flush reason).Kept :=
  ⟨h.reachable, h.alive, h.held, h.linked, h.begun, fun _ => ⟨ended, mine⟩, h.left⟩

end Kept

theorem carries_deed {s t : Station} (h : s.Deed t) (alive : s.gone = false)
    (held : s.held = true) : s.Carries t :=
  (h.step alive held []).2

/-- The end is decided. -/
theorem Kept.decide (h : p.Kept) (running : p.link.stage = .running) (undecided : p.closing = none)
    (reason : Disconnect) : (p.decide reason).Kept := by
  by_cases isOpen : p.station.session.phase = .opened
  · rw [decide_of_open isOpen]
    set q := p.onStation fun s => s.act fun t => t.closing .start with hq
    have kept : q.Kept := h.onward (.closing .start h.alive)
      (carries_deed (.closing .start) h.alive h.held) rfl rfl (Connection.stage_onStation ..)
    have ended : q.station.session.phase ≠ .opened := by
      have session : q.station.session = (p.station.turn.closing .start).session :=
        Station.session_adopt ..
      rw [session, Turn.closing, Turn.beginClose_of_open (t := p.station.turn) isOpen]
      exact fun isOpen => by cases isOpen
    refine ⟨kept.reachable, kept.alive, kept.held, kept.linked, fun _ => ended, ?_, kept.left⟩
    exact fun stopped => absurd ((Connection.stage_onStation ..).trans running) stopped
  · rw [decide_of_ended isOpen]
    exact h.flush isOpen (fun mine => absurd undecided mine) reason

/-- **When the end is decided, the session is closed,** or another one is about to close it. -/
theorem Step.kept (h : Step p q) (kept : p.Kept) : q.Kept := by
  cases h with
  | arrive | peer | readFails | streamEnds =>
    exact kept.same rfl rfl id kept.left (.inl rfl)
  | use use =>
    exact kept.onward (use.step kept.alive) (carries_deed use.deed kept.alive kept.held) rfl rfl
      (Connection.stage_onStation ..)
  | @read a =>
    cases a with
    | text s =>
      exact kept.onward (.receive s kept.alive) (carries_deed (.receive s) kept.alive kept.held)
        rfl rfl (Connection.stage_onStation ..)
    | ping length => exact kept.same rfl rfl id kept.left (.inl (Link.stage_deliver ..))
    | binary | pong | close | failure => exact kept.same rfl rfl id kept.left (.inl rfl)
  | write => exact kept.same rfl rfl id kept.left (.inl (Link.stage_deliver ..))
  | sayFarewell writes _ _ unlinked =>
    exact kept.same rfl rfl (fun _ => writes) (fun _ => kept.closed writes unlinked)
      (.inl (Link.stage_deliver ..))
  | farewellFails writes _ _ unlinked =>
    exact kept.same rfl rfl (fun _ => writes) (fun _ => kept.closed writes unlinked) (.inl rfl)
  | writeFails writes =>
    -- the session stays as open as it was
    have station : p.breakOff.station =
        { p.station with session := { p.station.session with linked := false } } := rfl
    refine ⟨kept.reachable.step (.unlink kept.alive), kept.alive, kept.held, ?_, kept.begun, ?_, ?_⟩
    · intro _ none
      cases none
    · rw [stage_breakOff, station]
      exact kept.stopped
    · intro none
      cases none
  | notice running undecided | signal running undecided => exact kept.decide running undecided _
  | closed running closing closed => exact kept.flush (by simp [closed]) (fun _ => closed) _
  | finish flushing | giveUp flushing =>
    exact kept.same rfl rfl id kept.left (.inr (by simp [flushing]))

/-! ## Reading -/

/-- Some of what has come was read, and its texts were given to the session; the rest waits, unless
the end has come. -/
def Reads (p : Relay) : Prop :=
  ∃ before, before <+: p.came ∧ (p.link.isEnded = false → p.came = before ++ p.link.arrivals) ∧
    p.fed = before.filterMap Arrival.text?

/-- Nothing is read, and nothing has come. -/
theorem Reads.same (h : p.Reads) (came : q.came = p.came) (fed : q.fed = p.fed)
    (link : q.link.isEnded = false → p.link.isEnded = false ∧
      q.link.arrivals = p.link.arrivals) : q.Reads := by
  obtain ⟨before, read, rest, texts⟩ := h
  refine ⟨before, came ▸ read, fun going => ?_, fed.trans texts⟩
  obtain ⟨going, arrivals⟩ := link going
  rw [came, arrivals, rest going]

/-- The next of what has come is read. -/
theorem Reads.next (h : p.Reads) {a : Arrival} {rest : List Arrival}
    (going : p.link.isEnded = false) (next : p.link.arrivals = a :: rest) (came : q.came = p.came)
    (fed : q.fed = p.fed ++ a.text?.toList) (arrivals : q.link.arrivals = rest) : q.Reads := by
  obtain ⟨before, -, unread, texts⟩ := h
  have split : p.came = (before ++ [a]) ++ rest := by
    rw [unread going, next, List.append_assoc, List.singleton_append]
  refine ⟨before ++ [a], ?_, fun _ => ?_, ?_⟩
  · rw [came, split]
    exact List.prefix_append ..
  · rw [came, arrivals, split]
  · rw [fed, texts, List.filterMap_append]
    cases text : a.text? <;> simp [text]

/-- **What the session was given is what has come,** up to some point. -/
theorem Step.reads (h : Step p q) (reads : p.Reads) : q.Reads := by
  have flushed : ∀ reason, p.link.stage = .running → (p.flush reason).Reads := fun _ running =>
    reads.same rfl rfl fun _ => ⟨Link.isEnded_of_running running, rfl⟩
  have decided : ∀ reason, p.link.stage = .running → (p.decide reason).Reads := by
    intro reason running
    by_cases isOpen : p.station.session.phase = .opened
    · rw [decide_of_open isOpen]
      exact reads.same rfl rfl fun going =>
        ⟨(Link.isEnded_queue ..).symm.trans going, Link.arrivals_queue ..⟩
    · rw [decide_of_ended isOpen]
      exact flushed reason running
  cases h with
  | arrive a =>
    obtain ⟨before, read, rest, texts⟩ := reads
    refine ⟨before, read.trans (List.prefix_append ..), fun going => ?_, texts⟩
    show p.came ++ [a] = before ++ (p.link.arrivals ++ [a])
    rw [rest going, List.append_assoc]
  | peer => exact reads.same rfl rfl fun going => ⟨going, rfl⟩
  | use =>
    exact reads.same rfl rfl fun going =>
      ⟨(Link.isEnded_queue ..).symm.trans going, Link.arrivals_queue ..⟩
  | @read a rest _ going next =>
    cases a with
    | text s => exact reads.next going next rfl rfl (Link.arrivals_queue ..)
    | ping length =>
      exact reads.next going next rfl (List.append_nil _).symm (Link.arrivals_deliver ..)
    | binary | pong | close | failure =>
      exact reads.next going next rfl (List.append_nil _).symm rfl
  | readFails | streamEnds | farewellFails => exact reads.same rfl rfl fun going => ⟨going, rfl⟩
  | @write _ rest =>
    have stage := Link.isEnded_deliver { p.link with outgoing := rest }
    exact reads.same rfl rfl fun going => ⟨(stage ..).symm.trans going, Link.arrivals_deliver ..⟩
  | sayFarewell =>
    exact reads.same rfl rfl fun going =>
      ⟨(Link.isEnded_deliver ..).symm.trans going, Link.arrivals_deliver ..⟩
  | writeFails =>
    exact reads.same rfl rfl fun going =>
      ⟨(Link.isEnded_queue ..).symm.trans going, Link.arrivals_queue ..⟩
  | notice running | signal running => exact decided _ running
  | closed running => exact flushed _ running
  | finish | giveUp => exact reads.same rfl rfl fun going => by cases going

/-! ## Writing -/

/-- As long as nothing has failed, the texts that were accepted are those that were written and
those that wait, and when the writing task has ended, all of them were written, and a farewell. -/
structure Writes (p : Relay) : Prop where
  waiting : p.writer = none → p.link.isEnded = false → p.failed = false →
    p.written ++ p.link.outgoing.map .text = p.accepted.map .text
  all : p.writer = some .sessionClosed → p.failed = false →
    p.written = p.accepted.map .text ++ [.close]

namespace Writes

/-- Nothing is sent, and nothing is written. -/
theorem same (h : p.Writes) (notes : q.station.notes = p.station.notes)
    (writer : q.writer = p.writer) (written : q.written = p.written) (failed : q.failed = p.failed)
    (link : q.link.isEnded = false → p.link.isEnded = false ∧
      q.link.outgoing = p.link.outgoing) : q.Writes := by
  have accepted : q.accepted = p.accepted := congrArg Station.texts notes
  refine ⟨fun writes going fine => ?_, fun ended fine => ?_⟩
  · obtain ⟨going, outgoing⟩ := link going
    rw [written, outgoing, accepted]
    exact h.waiting (writer ▸ writes) going (failed ▸ fine)
  · rw [written, accepted]
    exact h.all (writer ▸ ended) (failed ▸ fine)

/-- The station does something, and the texts it sends wait. -/
theorem sends (h : p.Writes) (kept : p.Kept) (step : p.station.Step q.station)
    (writer : q.writer = p.writer) (written : q.written = p.written) (failed : q.failed = p.failed)
    (link : q.link.isEnded = false → p.link.isEnded = false ∧ q.link.outgoing =
      p.link.outgoing ++ Station.texts (q.station.notes.drop p.station.notes.length)) :
    q.Writes := by
  have accepted : q.accepted =
      p.accepted ++ Station.texts (q.station.notes.drop p.station.notes.length) := step.texts
  refine ⟨fun writes going fine => ?_, fun ended fine => ?_⟩
  · obtain ⟨going, outgoing⟩ := link going
    rw [written, outgoing, accepted, List.map_append, List.map_append, ← List.append_assoc,
      h.waiting (writer ▸ writes) going (failed ▸ fine)]
  · -- the writing task has ended, and so has the session
    have ended : p.writer = some .sessionClosed := writer ▸ ended
    have stopped := kept.reachable.stopped kept.alive (kept.left ended)
    rw [written, accepted, step.texts_of_stopped stopped, List.append_nil]
    exact h.all ended (failed ▸ fine)

/-- Nothing is claimed of what was written once something has failed. -/
theorem of_failed (failed : q.failed = true) : q.Writes := by
  refine ⟨fun _ _ fine => ?_, fun _ fine => ?_⟩
  · rw [failed] at fine
    cases fine
  · rw [failed] at fine
    cases fine

end Writes

/-- **What the session hands over is written, or waits.** -/
theorem Step.writes (h : Step p q) (kept : p.Kept) (writes : p.Writes) : q.Writes := by
  have queued : ∀ {l : Link} (texts : List String), (l.queue texts).isEnded = false →
      l.isEnded = false ∧ (l.queue texts).outgoing = l.outgoing ++ texts := by
    intro l texts going
    have going : l.isEnded = false := (Link.isEnded_queue ..).symm.trans going
    exact ⟨going, by simp [Link.queue, going]⟩
  have flushed : ∀ reason, p.link.stage = .running → (p.flush reason).Writes := fun _ running =>
    writes.same rfl rfl rfl rfl fun _ => ⟨Link.isEnded_of_running running, rfl⟩
  -- closing a session is something that its station does
  have decided : ∀ reason, p.link.stage = .running → (p.decide reason).Writes := by
    intro reason running
    by_cases isOpen : p.station.session.phase = .opened
    · rw [decide_of_open isOpen]
      exact writes.sends kept (.closing .start kept.alive) rfl rfl rfl (queued _)
    · rw [decide_of_ended isOpen]
      exact flushed reason running
  cases h with
  | arrive | peer | readFails | streamEnds =>
    exact writes.same rfl rfl rfl rfl fun going => ⟨going, rfl⟩
  | use use => exact writes.sends kept (use.step kept.alive) rfl rfl rfl (queued _)
  | @read a rest =>
    cases a with
    | text s => exact writes.sends kept (.receive s kept.alive) rfl rfl rfl (queued _)
    | ping length =>
      have stage := Link.isEnded_deliver { p.link with arrivals := rest }
      exact writes.same rfl rfl rfl rfl fun going =>
        ⟨(stage ..).symm.trans going, Link.outgoing_deliver ..⟩
    | binary | pong | close | failure =>
      exact writes.same rfl rfl rfl rfl fun going => ⟨going, rfl⟩
  | @write text rest working going next =>
    refine ⟨fun _ _ fine => ?_, fun ended => ?_⟩
    · obtain ⟨fine, taken⟩ := Bool.or_eq_false_iff.1 fine
      have taken : p.link.farewell = false := taken
      have written : (p.write text rest).written = p.written ++ [.text text] :=
        if_neg (by simp [onLink, Connection.onLink, taken])
      have outgoing : (p.write text rest).link.outgoing = rest := Link.outgoing_deliver ..
      rw [written, outgoing, List.append_assoc]
      have before := writes.waiting working going fine
      rwa [next, List.map_cons] at before
    · rw [show (p.write text rest).writer = p.writer from rfl, working] at ended
      cases ended
  | sayFarewell working going nothing =>
    refine ⟨fun none => absurd none (Option.some_ne_none _), fun _ fine => ?_⟩
    obtain ⟨fine, taken⟩ := Bool.or_eq_false_iff.1 fine
    have written : p.sayFarewell.written = p.written ++ [.close] := if_neg (by simp [taken])
    have before := writes.waiting working going fine
    rw [nothing, List.map_nil, List.append_nil] at before
    rw [written, before]
    rfl
  | writeFails | farewellFails | giveUp => exact .of_failed rfl
  | notice running | signal running => exact decided _ running
  | closed running => exact flushed _ running
  | finish => exact writes.same rfl rfl rfl rfl fun going => by cases going

end Relay

end ChargeLink

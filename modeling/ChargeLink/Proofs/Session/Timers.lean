import ChargeLink.Proofs.Session.Steps
import Mathlib.Data.List.Nodup

/-!
# The slot, the queue and the timer of a session

`Sound` says how they belong together at every moment of every run: the
outstanding call has exactly one armed timer, at its start plus the time
allowed for an answer; without an outstanding call the session has no timer;
the queue keeps its bound; and once a session has let its calls fail in order to
close, it has neither calls nor a timer, and when it is closed, no transport.

* `Sound.of_reachable`: every desk is sound.
* `Beside.of_smalls`: a session leaves the timers of others alone.
-/

namespace ChargeLink

/-! ## Timers -/

namespace Supervisor

variable {s : Supervisor Expiry} {n m : ℕ} {t : Timer Expiry}

theorem ofSession_abort (s : Supervisor Expiry) (n key : ℕ) :
    (s.abort key).ofSession n = (s.ofSession n).filter fun t => t.key != key := by
  simp only [ofSession, abort, List.filter_filter, Bool.and_comm]

theorem Keyed.abort (h : s.Keyed) (key : ℕ) : (s.abort key).Keyed := by
  refine ⟨fun t ht => h.fresh t (List.mem_filter.1 ht |>.1), ?_⟩
  exact h.nodup.sublist ((List.filter_sublist (l := s.armed)).map _)

theorem Keyed.release (h : s.Keyed) (call : PendingCall ℕ Owner) : (s.release call).Keyed := by
  unfold Supervisor.release
  split
  · exact h.abort _
  · exact h

theorem hasLoop_release (s : Supervisor Expiry) (call : PendingCall ℕ Owner) :
    (s.release call).hasLoop = s.hasLoop := by
  unfold Supervisor.release
  split <;> rfl

theorem nextKey_release (s : Supervisor Expiry) (call : PendingCall ℕ Owner) :
    (s.release call).nextKey = s.nextKey := by
  unfold Supervisor.release
  split <;> rfl

/-- Two armed timers with one key are the same. -/
theorem Keyed.eq_of_key (h : s.Keyed) {u : Timer Expiry} (ht : t ∈ s.armed) (hu : u ∈ s.armed)
    (key : t.key = u.key) : t = u :=
  List.inj_on_of_nodup_map h.nodup ht hu key

/-- Disarming a session's timer leaves the timers of other sessions alone. -/
theorem Keyed.ofSession_abort_other (h : s.Keyed) (ht : t ∈ s.ofSession n) (other : m ≠ n) :
    (s.abort t.key).ofSession m = s.ofSession m := by
  rw [ofSession_abort, List.filter_eq_self]
  intro u hu
  simp only [ofSession, List.mem_filter, decide_eq_true_eq] at ht hu
  have : u.key ≠ t.key := by
    intro key
    have := h.eq_of_key hu.1 ht.1 key
    exact other (by rw [← hu.2, ← ht.2, this])
  simpa using this

/-- A key that is not armed disarms nothing. -/
theorem Keyed.abort_next (h : s.Keyed) :
    s.armed.filter (fun t => t.key != s.nextKey) = s.armed := by
  rw [List.filter_eq_self]
  intro t ht
  simpa using Nat.ne_of_lt (h.fresh t ht)

end Supervisor

namespace Turn

variable {t : Turn}

theorem keyed_armed (h : t.timers.Keyed) : t.armed.Keyed := by
  constructor
  · intro u hu
    rcases List.mem_cons.1 hu with rfl | hu
    · exact Nat.lt_succ_self _
    · exact Nat.lt_succ_of_lt (h.fresh u hu)
  · refine List.nodup_cons.2 ⟨?_, h.nodup⟩
    intro hmem
    obtain ⟨u, hu, key⟩ := List.mem_map.1 hmem
    exact Nat.ne_of_lt (h.fresh u hu) key

theorem ofSession_armed (t : Turn) : t.armed.ofSession t.session.number =
    ⟨t.timers.nextKey, t.deadline, ⟨t.session.number, t.session.nextId⟩⟩ ::
      t.timers.ofSession t.session.number := by
  simp [Supervisor.ofSession, armed]

theorem ofSession_armed_other (t : Turn) {m : ℕ} (other : m ≠ t.session.number) :
    t.armed.ofSession m = t.timers.ofSession m := by
  simp [Supervisor.ofSession, armed, other.symm]

/-- Arming a timer and disarming it again arms nothing. -/
theorem armed_abort (h : t.timers.Keyed) :
    (t.armed.abort t.timers.nextKey).armed = t.timers.armed := by
  simp [Supervisor.abort, armed, h.abort_next]

end Turn

/-! ## The invariant -/

/-- Slot, queue, timers and phase of a session belong together; `hand` is the call about to
start. -/
structure Sound (c : Chronicle) (hand : Option QueuedCall) : Prop where
  keyed : c.timers.Keyed
  held : ∀ call, c.session.slot = ⟨some call⟩ → ∃ key, call.timer = some key ∧
    c.timers.ofSession c.session.number =
      [⟨key, call.deadline, ⟨c.session.number, call.id⟩⟩] ∧
    call.deadline = call.createdAt + c.session.config.callTimeout ∧
    call.createdAt ≤ c.now ∧ c.now ≤ call.deadline
  free : c.session.slot = .empty → c.timers.ofSession c.session.number = []
  room : c.session.queue.length ≤ c.session.config.queueCapacity
  reject : c.session.config.busyPolicy = .reject → c.session.queue = []
  served : c.session.phase = .opened → c.session.slot = .empty → c.session.queue ≠ [] → 0 < c.owed
  ended : c.session.phase ≠ .opened → c.session.abandoned.isSome →
    c.session.slot = .empty ∧ c.session.queue = []
  closed : c.session.phase = .closed → c.session.abandoned.isSome ∧ c.session.linked = false
  ready : hand.isSome → c.session.phase = .opened ∧ c.session.slot = .empty

namespace Sound

variable {c d : Chronicle} {hand : Option QueuedCall} {call : PendingCall ℕ Owner}
  {timer : Timer Expiry} {key : ℕ}

/-- Disarming the outstanding call's timer leaves the session without one. -/
theorem release_free (h : Sound c hand) (slot : c.session.slot = ⟨some call⟩) :
    (c.timers.release call).ofSession c.session.number = [] := by
  obtain ⟨key, timer, own, -⟩ := h.held call slot
  rw [Supervisor.release, timer, Supervisor.ofSession_abort, own]
  simp

theorem release_abort_free (h : Sound c hand) (slot : c.session.slot = ⟨some call⟩) :
    ((c.timers.abort key).release call).ofSession c.session.number = [] := by
  obtain ⟨key', timer, own, -⟩ := h.held call slot
  rw [Supervisor.release, timer, Supervisor.ofSession_abort, Supervisor.ofSession_abort, own,
    List.filter_comm]
  simp

/-- The only timer that can come is that of the outstanding call. -/
theorem held_of_armed (h : Sound c hand) (armed : timer ∈ c.timers.ofSession c.session.number) :
    ∃ call, c.session.slot = ⟨some call⟩ ∧ call.timer = some timer.key ∧
      call.id = timer.task.call ∧ call.deadline = timer.deadline := by
  cases slot : c.session.slot.slot with
  | none =>
    rw [h.free (by rw [PendingTable.empty, ← slot])] at armed
    cases armed
  | some call =>
    obtain ⟨key, timed, own, -⟩ := h.held call (by rw [← slot])
    rw [own, List.mem_singleton] at armed
    subst armed
    exact ⟨call, by rw [← slot], timed, rfl, rfl⟩

/-- No timer is out of date. -/
theorem not_stale (h : Sound c hand) (armed : timer ∈ c.timers.ofSession c.session.number) :
    c.session.slot.outstandingId = some timer.task.call := by
  obtain ⟨call, slot, -, same, -⟩ := h.held_of_armed armed
  simp [slot, PendingTable.outstandingId, same]

theorem own {d e : Desk} (h : Sound d.chronicle d.hand) (step : Own d e) :
    Sound e.chronicle e.hand := by
  cases step with
  | turnAway =>
    exact ⟨h.keyed, h.held, h.free, h.room, h.reject, h.served, h.ended, h.closed, by simp⟩
  | @enqueue c m v p fit isOpen taken room =>
    refine ⟨h.keyed, h.held, h.free, ?_, ?_, ?_, ?_, h.closed, by simp⟩
    · simpa [Chronicle.becomes, Chronicle.ask] using Nat.succ_le_of_lt room.2
    · intro reject
      simp [Chronicle.becomes, Chronicle.ask, room.1] at reject
    -- a free slot before calls that wait has been left, and is to be handed on
    · intro _ free _
      exact h.served isOpen free fun empty => taken ⟨empty, free⟩
    · exact fun ended => absurd isOpen ended
  | take fit isOpen idle =>
    exact ⟨h.keyed, h.held, h.free, h.room, h.reject, h.served, h.ended, h.closed,
      fun _ => ⟨isOpen, idle.2⟩⟩
  | takeNext isOpen free queue =>
    -- what holds of the whole queue holds of its rest
    have room := h.room
    have reject := h.reject
    have served := h.served isOpen free
    simp only [queue, List.length_cons] at room reject served
    refine ⟨h.keyed, h.held, h.free, Nat.le_of_succ_le room, ?_, fun _ _ _ => served (by simp),
      ?_, h.closed, fun _ => ⟨isOpen, free⟩⟩
    · exact fun policy => absurd (reject policy) (by simp)
    · exact fun ended => absurd isOpen ended
  | untimed =>
    exact ⟨h.keyed, h.held, h.free, h.room, h.reject, h.served, h.ended, h.closed, by simp⟩
  | @transmit c q loop linked =>
    obtain ⟨isOpen, free⟩ := h.ready rfl
    refine ⟨Turn.keyed_armed h.keyed, ?_, ?_, h.room, h.reject, ?_, ?_, h.closed, by simp⟩
    · intro call slot
      have : c.turn.pending q = call := by simpa [Chronicle.becomes] using slot
      subst this
      -- the slot was free, so the new timer is the only one
      refine ⟨c.timers.nextKey, rfl, ?_, rfl, Nat.le_refl _, Nat.le_add_right _ _⟩
      exact (Turn.ofSession_armed c.turn).trans (by rw [h.free free]; rfl)
    · intro slot
      simp [Chronicle.becomes, PendingTable.empty] at slot
    · intro _ slot
      simp [Chronicle.becomes, PendingTable.empty] at slot
    · exact fun ended => absurd isOpen ended
  | @miss c q loop unlinked =>
    obtain ⟨isOpen, free⟩ := h.ready rfl
    -- the timer that was armed is disarmed again
    have own : (c.turn.armed.abort c.timers.nextKey).ofSession c.session.number = [] := by
      rw [Supervisor.ofSession, Turn.armed_abort h.keyed]
      exact h.free free
    refine ⟨(Turn.keyed_armed h.keyed).abort _, ?_, fun _ => own, h.room, h.reject,
      fun isOpen _ => h.served isOpen free, ?_, h.closed, by simp⟩
    · intro call slot
      simp [Chronicle.becomes, PendingTable.empty] at slot
    · exact fun ended => absurd isOpen ended
  | @answer c text f id raw call decodes answers slot same =>
    refine ⟨h.keyed.release call, ?_, fun _ => h.release_free slot, h.room, h.reject,
      fun _ _ _ => Nat.succ_pos _, fun ended done => ⟨rfl, (h.ended ended done).2⟩, h.closed,
      by simp⟩
    intro call' slot'
    simp [Chronicle.becomes, Chronicle.hears, Chronicle.owing, PendingTable.empty] at slot'
  | @lapse c timer call armed due slot same =>
    refine ⟨(h.keyed.abort _).release call, ?_, fun _ => h.release_abort_free slot, h.room,
      h.reject, fun _ _ _ => Nat.succ_pos _, fun ended done => ⟨rfl, (h.ended ended done).2⟩,
      h.closed, by simp⟩
    intro call' slot'
    simp [Chronicle.becomes, Chronicle.owing, PendingTable.empty] at slot'
  | stale armed due other => exact absurd (h.not_stale armed) other
  | handedOn owed done =>
    -- the queue has been served, so nothing is owed for it any more
    exact ⟨h.keyed, h.held, h.free, h.room, h.reject,
      fun isOpen free queue => absurd ⟨isOpen, free, queue⟩ done, h.ended, h.closed, by simp⟩
  | beginClose isOpen =>
    -- no call has failed yet, and the queue is not handed on any more
    exact ⟨h.keyed, h.held, h.free, h.room, h.reject, fun opened => (by cases opened),
      fun _ done => (by cases done), fun closed => (by cases closed), by simp⟩
  | @abandon c closing first =>
    refine ⟨?_, ?_, ?_, Nat.zero_le _, fun _ => rfl, ?_, fun _ _ => ⟨rfl, rfl⟩, ?_, by simp⟩
    · show (c.session.slot.slot.elim c.timers c.timers.release).Keyed
      cases c.session.slot.slot with
      | none => exact h.keyed
      | some call => exact h.keyed.release call
    · intro call slot
      simp [Chronicle.becomes, PendingTable.empty] at slot
    · intro _
      show (c.session.slot.slot.elim c.timers c.timers.release).ofSession c.session.number = []
      cases slot : c.session.slot.slot with
      | none => exact h.free (by rw [PendingTable.empty, ← slot])
      | some call => exact h.release_free (by rw [← slot])
    · exact fun _ _ queue => absurd rfl queue
    · exact fun closed => ⟨rfl, (h.closed closed).2⟩
  | @endClose c n closing done =>
    have some : c.session.abandoned.isSome := by rw [done]; rfl
    have ended := h.ended (by rw [closing]; decide) some
    exact ⟨h.keyed, h.held, h.free, h.room, h.reject, fun opened => (by cases opened),
      fun _ _ => ended, fun _ => ⟨some, rfl⟩, by simp⟩

theorem inbound (h : Sound c none) (step : Inbound c d) : Sound d none := by
  cases step <;>
    exact ⟨h.keyed, h.held, h.free, h.room, h.reject, h.served, h.ended, h.closed, by simp⟩

theorem small {d e : Desk} (h : Sound d.chronicle d.hand) (step : Small d e) :
    Sound e.chronicle e.hand := by
  cases step with
  | own step => exact h.own step
  | inbound step => exact h.inbound step
  | unlink =>
    exact ⟨h.keyed, h.held, h.free, h.room, h.reject, h.served, h.ended,
      fun closed => ⟨(h.closed closed).1, rfl⟩, by simp⟩

theorem ambient (h : Sound c none) (step : Ambient c d) : Sound d none := by
  cases step with
  | share timers keyed loop own =>
    refine ⟨keyed, ?_, ?_, h.room, h.reject, h.served, h.ended, h.closed, by simp⟩
    · simpa only [Chronicle.share, own] using h.held
    · simpa only [Chronicle.share, own] using h.free
  | wait ms handedOn punctual =>
    refine ⟨h.keyed, ?_, h.free, h.room, h.reject, h.served, h.ended, h.closed, by simp⟩
    intro call slot
    obtain ⟨key, timer, own, deadline, started, -⟩ := h.held call slot
    -- time stops at the deadline of the outstanding call
    have := punctual ⟨key, call.deadline, ⟨c.session.number, call.id⟩⟩ (by rw [own]; simp)
    exact ⟨key, timer, own, deadline, Nat.le_add_right_of_le started, this⟩

/-- **Every desk is sound.** -/
theorem of_reachable {d : Desk} (h : d.Reachable) : Sound d.chronicle d.hand := by
  induction h with
  | opened number chargePointId registry config codec label timers now keyed unused =>
    refine ⟨keyed, ?_, fun _ => unused, Nat.zero_le _, fun _ => rfl, ?_, fun _ _ => ⟨rfl, rfl⟩,
      fun closed => (by cases closed), by simp⟩
    · intro call slot
      simp [Chronicle.opened, Turn.openSession, Turn.publish, Turn.emit, PendingTable.empty] at slot
    · exact fun _ _ queue => absurd rfl queue
  | small _ step ih => exact ih.small step
  | ambient _ step ih => exact ih.ambient step

end Sound

/-! ## Other sessions -/

/-- From `c` to `d` nothing changes for the sessions that share the timers. -/
structure Beside (c d : Chronicle) : Prop where
  number : d.session.number = c.session.number
  now : d.now = c.now
  loop : d.timers.hasLoop = c.timers.hasLoop
  others : ∀ n, n ≠ c.session.number → d.timers.ofSession n = c.timers.ofSession n

namespace Beside

variable {c d e : Chronicle}

theorem refl (c : Chronicle) : Beside c c :=
  ⟨rfl, rfl, rfl, fun _ _ => rfl⟩

theorem trans (h : Beside c d) (h' : Beside d e) : Beside c e := by
  refine ⟨h'.number.trans h.number, h'.now.trans h.now, h'.loop.trans h.loop, fun n other => ?_⟩
  rw [h'.others n (by rwa [h.number]), h.others n other]

/-- Disarming the outstanding call's timer is nothing to other sessions. -/
theorem release {hand : Option QueuedCall} (h : Sound c hand) {call : PendingCall ℕ Owner}
    (slot : c.session.slot = ⟨some call⟩) {n : ℕ} (other : n ≠ c.session.number) :
    (c.timers.release call).ofSession n = c.timers.ofSession n := by
  obtain ⟨key, timer, own, -⟩ := h.held call slot
  rw [Supervisor.release, timer]
  refine h.keyed.ofSession_abort_other (t := ⟨key, call.deadline, ⟨c.session.number, call.id⟩⟩) ?_
    other
  rw [own]
  exact List.mem_cons_self

theorem own {d e : Desk} (h : Sound d.chronicle d.hand) (step : Own d e) :
    Beside d.chronicle e.chronicle := by
  cases step with
  | turnAway | enqueue | take | takeNext | untimed | handedOn | beginClose | endClose =>
    exact ⟨rfl, rfl, rfl, fun _ _ => rfl⟩
  | @transmit c q loop linked =>
    exact ⟨rfl, rfl, rfl, fun n other => c.turn.ofSession_armed_other other⟩
  | @miss c q loop unlinked =>
    refine ⟨rfl, rfl, rfl, fun n other => ?_⟩
    show (c.turn.armed.abort c.timers.nextKey).ofSession n = _
    rw [Supervisor.ofSession, Turn.armed_abort h.keyed, Supervisor.ofSession]
  | answer decodes answers slot same =>
    exact ⟨rfl, rfl, Supervisor.hasLoop_release .., fun n other => release h slot other⟩
  | @lapse c timer call armed due slot same =>
    refine ⟨rfl, rfl, Supervisor.hasLoop_release .., fun n other => ?_⟩
    -- the timer is disarmed when it comes and again when its call is settled
    obtain ⟨key, timed, -⟩ := h.held call slot
    have once := h.keyed.ofSession_abort_other armed other
    have twice := release h slot other
    simp only [Supervisor.release, timed] at twice
    show ((c.timers.abort timer.key).release call).ofSession n = _
    simp only [Supervisor.release, timed]
    rw [Supervisor.ofSession_abort, once, ← Supervisor.ofSession_abort]
    exact twice
  | stale armed due other => exact absurd (h.not_stale armed) other
  | @abandon c =>
    refine ⟨rfl, rfl, ?_, fun n other => ?_⟩
    · show (c.session.slot.slot.elim c.timers c.timers.release).hasLoop = _
      cases c.session.slot.slot with
      | none => rfl
      | some call => exact Supervisor.hasLoop_release ..
    · show (c.session.slot.slot.elim c.timers c.timers.release).ofSession n = _
      cases slot : c.session.slot.slot with
      | none => rfl
      | some call => exact release h (by rw [← slot]) other

theorem of_smalls {d e : Desk} (hd : d.Reachable) (h : Smalls d e) :
    Beside d.chronicle e.chronicle := by
  induction h with
  | refl => exact refl _
  | tail before step ih =>
    refine ih.trans ?_
    cases step with
    | own step => exact own (Sound.of_reachable (hd.smalls before)) step
    | inbound step =>
      have same := step.same
      refine ⟨same.number, same.now, ?_, fun n _ => ?_⟩ <;> rw [same.timers]
    | unlink => exact ⟨rfl, rfl, rfl, fun _ _ => rfl⟩

end Beside

end ChargeLink

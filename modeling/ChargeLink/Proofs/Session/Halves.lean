import ChargeLink.Proofs.Session.Timers
import Mathlib.Tactic.SplitIfs

/-!
# The two halves of a session

A session deals with its own calls and with those of its peer. Of a `Turn`, one
half is what own calls need: the slot, the queue, the numbers and the timers.
The other half is what the calls of the peer need: the inbox and the handler
that is running. Phase, transport, time and what never changes belong to both,
and so does whether the session has let its calls fail in order to close.

An operation that is blind to one half does the same whatever is there, and
leaves it as it is. So two turns that agree in the other half agree in it after
the operation, and the operation has brought about the same (`Half.congr`).

* `Turn.send_withPeer`, `Turn.answered_withPeer`, `Turn.ring_withPeer`,
  `Turn.pump_withPeer`, `Turn.closing_withPeer`: what concerns own calls is blind
  to the calls of the peer.
* `Turn.hear_withOwn`, `Turn.takeUp_withOwn`, `Turn.handle_withOwn`,
  `Turn.finish_withOwn`: what the peer asks is blind to own calls.
-/

namespace ChargeLink

/-- One half of a turn, and what may stand in place of the other half. -/
structure Half (κ : Type) where
  /-- The turn with nothing in the other half and no effects. -/
  only : Turn → Turn
  /-- What is in the other half. -/
  other : Turn → κ
  /-- The turn with something else in the other half, after some effects. -/
  fill : Turn → κ → List Effect → Turn
  fill_only : ∀ t, fill (only t) (other t) t.effects = t
  only_fill : ∀ t x before, only (fill t x before) = only t
  effects_fill : ∀ t x before, (fill t x before).effects = before ++ t.effects

/-- In two turns that agree in a half, an operation that is blind to the other half does the
same. -/
theorem Half.congr {κ : Type} {h : Half κ} {f : Turn → Turn} {t u : Turn}
    (blind : ∀ x before, f (h.fill (h.only t) x before) = h.fill (f (h.only t)) x before)
    (same : h.only t = h.only u) :
    h.only (f t) = h.only (f u) ∧
      ∃ es, (f t).effects = t.effects ++ es ∧ (f u).effects = u.effects ++ es := by
  have ft : f t = h.fill (f (h.only t)) (h.other t) t.effects := by
    rw [← blind, h.fill_only]
  have fu : f u = h.fill (f (h.only t)) (h.other u) u.effects := by
    rw [← blind, same, h.fill_only]
  refine ⟨?_, (f (h.only t)).effects, ?_, ?_⟩
  · rw [ft, fu, h.only_fill, h.only_fill]
  · rw [ft, h.effects_fill]
  · rw [fu, h.effects_fill]

/-- What is found out without regard to the other half is the same, too. -/
theorem Half.congr_of_eq {κ α : Type} {h : Half κ} {g : Turn → α} {t u : Turn}
    (blind : ∀ x before, g (h.fill (h.only t) x before) = g (h.only t))
    (same : h.only t = h.only u) : g t = g u := by
  calc g t = g (h.fill (h.only t) (h.other t) t.effects) := by rw [h.fill_only]
    _ = g (h.fill (h.only t) (h.other u) u.effects) := by rw [blind, blind]
    _ = g u := by rw [same, h.fill_only]

/-- The calls of the peer that a session deals with. -/
structure PeerCalls where
  inbox : List InboundCall
  takenUp : Bool
  running : Option (InboundCall × Handler)

/-- The own calls that a session deals with. -/
structure OwnCalls where
  abandoned : ℕ
  slot : PendingTable ℕ Owner
  queue : List QueuedCall
  issued : ℕ
  transmitted : ℕ
  nextKey : ℕ
  armed : List (Timer Expiry)

namespace Turn

variable (t : Turn)

/-- The turn with other calls of the peer, after these effects. -/
def withPeer (p : PeerCalls) (before : List Effect) : Turn :=
  { t with
    session :=
      { t.session with
        inbox := p.inbox
        takenUp := p.takenUp
        running := p.running }
    effects := before ++ t.effects }

/-- The turn with other own calls, after these effects. -/
def withOwn (o : OwnCalls) (before : List Effect) : Turn :=
  { t with
    session :=
      { t.session with
        abandoned := t.session.abandoned.map fun _ => o.abandoned
        slot := o.slot
        queue := o.queue
        issued := o.issued
        transmitted := o.transmitted }
    timers := { t.timers with nextKey := o.nextKey, armed := o.armed }
    effects := before ++ t.effects }

end Turn

/-- The half of own calls. -/
def Half.own : Half PeerCalls where
  only t :=
    { t with
      session := { t.session with inbox := [], takenUp := false, running := none }
      effects := [] }
  other t := ⟨t.session.inbox, t.session.takenUp, t.session.running⟩
  fill := Turn.withPeer
  fill_only t := by simp [Turn.withPeer]
  only_fill _ _ _ := rfl
  effects_fill _ _ _ := rfl

/-- The half of the peer's calls. -/
def Half.peer : Half OwnCalls where
  only t :=
    { t with
      session :=
        { t.session with
          abandoned := t.session.abandoned.map fun _ => 0
          slot := .empty
          queue := []
          issued := 0
          transmitted := 0 }
      timers := { t.timers with nextKey := 0, armed := [] }
      effects := [] }
  other t :=
    ⟨t.session.abandoned.getD 0, t.session.slot, t.session.queue, t.session.issued,
      t.session.transmitted, t.timers.nextKey, t.timers.armed⟩
  fill := Turn.withOwn
  fill_only t := by
    have back : t.session.abandoned.map (fun _ => t.session.abandoned.getD 0) =
        t.session.abandoned := by
      cases t.session.abandoned <;> rfl
    simp [Turn.withOwn, Function.comp_def, back]
  only_fill t _ _ := by simp [Turn.withOwn, Function.comp_def]
  effects_fill _ _ _ := rfl

namespace Turn

variable {t : Turn} {p : PeerCalls} {o : OwnCalls} {before : List Effect} {q : QueuedCall}

/-! ## What concerns own calls -/

theorem start_withPeer (free : t.session.slot = .empty) :
    (t.withPeer p before).start q = (t.start q).withPeer p before := by
  have free' : (t.withPeer p before).session.slot = .empty := free
  cases loop : t.timers.hasLoop with
  | false =>
    rw [start_untimed loop, start_untimed (t := t.withPeer p before) loop]
    simp [withPeer]
  | true =>
    cases linked : t.session.linked with
    | true =>
      rw [start_linked loop free linked, start_linked (t := t.withPeer p before) loop free' linked]
      simp [withPeer, armed, pending, deadline, Session.nextId]
    | false =>
      rw [start_unlinked loop free linked,
        start_unlinked (t := t.withPeer p before) loop free' linked]
      simp [withPeer, armed, deadline, Session.nextId]

theorem send_withPeer (m : Message) (v : Value) :
    ((t.withPeer p before).send m v).2 = (t.send m v).2.withPeer p before := by
  set u := t.withPeer p before with hu
  rcases t.session.turnsAway_or m v with ⟨f, why⟩ | ⟨x, fit, isOpen, idle | ⟨taken, room⟩⟩
  · have why' : u.session.TurnsAway m v f := by
      cases why with
      | invalid h => exact .invalid h
      | unencodable valid h => exact .unencodable valid h
      | ended fit h => exact .ended fit h
      | busy fit h taken full => exact .busy fit h taken full
    rw [send_away why, send_away why']
    simp [hu, withPeer]
  · set w : Turn := { t with
      session := { t.session with issued := t.session.issued + 1 }
      effects := t.effects ++ [.accepted t.session.issued] } with hw
    have start : (w.withPeer p before).start (t.session.nextCall m x) = _ := start_withPeer idle.2
    rw [send_idle fit isOpen idle, send_idle (t := u) fit isOpen idle, ← hw, ← start]
    simp [hu, hw, withPeer, Session.nextCall]
  · rw [send_queued fit isOpen taken room, send_queued (t := u) fit isOpen taken room]
    simp [hu, withPeer, Session.nextCall]

theorem pumpFrom_withPeer : ∀ (q : List QueuedCall) (t : Turn),
    pumpFrom q (t.withPeer p before) = (pumpFrom q t).withPeer p before
  | [], _ => rfl
  | x :: rest, t => by
    by_cases ready : t.session.phase = .opened ∧ t.session.slot = .empty
    · obtain ⟨isOpen, free⟩ := ready
      set w : Turn := { t with session := { t.session with queue := rest } }
      have start : (w.withPeer p before).start x = _ := start_withPeer free
      rw [pumpFrom_ready isOpen free, pumpFrom_ready (t := t.withPeer p before) isOpen free,
        ← pumpFrom_withPeer, ← start]
      rfl
    · rw [pumpFrom_waits ready, pumpFrom_waits (t := t.withPeer p before) ready]
      rfl

theorem pump_withPeer : (t.withPeer p before).pump = t.pump.withPeer p before :=
  pumpFrom_withPeer ..

theorem settle_withPeer (id : String) (raw : RawOutcome) :
    (t.withPeer p before).settle id raw =
      ((t.settle id raw).1, (t.settle id raw).2.withPeer p before) := by
  by_cases held : t.session.slot.outstandingId = some id
  · obtain ⟨call, slot, same⟩ := PendingTable.exists_of_outstandingId held
    rw [settle_of_eq slot same, settle_of_eq (t := t.withPeer p before) slot same]
    simp [withPeer]
  · rw [settle_of_ne held, settle_of_ne (t := t.withPeer p before) held]

theorem answered_withPeer (id : String) (raw : RawOutcome) :
    (t.withPeer p before).answered id raw =
      ((t.answered id raw).1, (t.answered id raw).2.withPeer p before) := by
  by_cases held : t.session.slot.outstandingId = some id
  · obtain ⟨call, slot, same⟩ := PendingTable.exists_of_outstandingId held
    rw [answered, answered, settle_of_eq slot same,
      settle_of_eq (t := t.withPeer p before) slot same]
    simp [withPeer]
  · rw [answered, answered, settle_of_ne held, settle_of_ne (t := t.withPeer p before) held]
    simp [publish, emit, withPeer, Session.event]

theorem ring_withPeer (timer : Timer Expiry) :
    (t.withPeer p before).ring timer =
      ((t.ring timer).1, (t.ring timer).2.withPeer p before) :=
  settle_withPeer (t := { t with timers := t.timers.abort timer.key }) ..

theorem closing_withPeer (step : ClosingStep) :
    (t.withPeer p before).closing step = (t.closing step).withPeer p before := by
  set u := t.withPeer p before with hu
  cases step with
  | start =>
    by_cases isOpen : t.session.phase = .opened
    · rw [closing, closing, beginClose_of_open isOpen, beginClose_of_open (t := u) isOpen]
      rfl
    · rw [closing, closing, beginClose_of_not_open isOpen, beginClose_of_not_open (t := u) isOpen]
  | abandon =>
    by_cases due : t.session.phase = .closing ∧ t.session.abandoned = none
    · rw [closing, closing, abandon_of_closing due.1 due.2,
        abandon_of_closing (t := u) due.1 due.2]
      simp [hu, withPeer, Session.abandonment, Session.waiting]
    · rw [closing, closing, abandon_idle due, abandon_idle (t := u) due]
  | finish =>
    by_cases due : t.session.phase = .closing ∧ t.session.abandoned.isSome
    · obtain ⟨n, done⟩ := Option.isSome_iff_exists.1 due.2
      rw [closing, closing, endClose_of_abandoned due.1 done,
        endClose_of_abandoned (t := u) due.1 done]
      simp [hu, withPeer, Session.event]
    · rw [closing, closing, endClose_idle due, endClose_idle (t := u) due]

/-! ## What the peer asks -/

theorem replies_withOwn (call : InboundCall) (result : Except DispatchFault Json) :
    (t.withOwn o before).session.replies call result = t.session.replies call result := rfl

/-- A text that is no answer is heard the same. -/
theorem hear_withOwn {text : String} (asks : t.session.codec.answers text = false) :
    (t.withOwn o before).hear text = ((t.hear text).1, (t.hear text).2.withOwn o before) := by
  set u := t.withOwn o before with hu
  cases decodes : t.session.codec.decode text with
  | error fault =>
    by_cases silent : Frame.answerable? text = none ∨ t.session.linked = false
    · rw [hear_dropped decodes silent, hear_dropped (t := u) decodes silent]
    · obtain ⟨answerable, linked⟩ := not_or.1 silent
      obtain ⟨id, answerable⟩ := Option.ne_none_iff_exists'.1 answerable
      have linked : t.session.linked = true := by simpa using linked
      rw [hear_refused decodes answerable linked, hear_refused (t := u) decodes answerable linked]
      simp [hu, withOwn, Session.version]
  | ok f =>
    cases f with
    | call id action payload =>
      by_cases takes : t.session.phase = .opened ∧ t.timers.hasLoop = true
      · rw [hear_buffered decodes takes.1 takes.2, hear_buffered (t := u) decodes takes.1 takes.2]
        simp [hu, withOwn]
      · rw [hear_ignored decodes takes, hear_ignored (t := u) decodes takes]
    | result | error => simp [Codec.answers, decodes, Frame.answer?] at asks

theorem takeUp_withOwn : (t.withOwn o before).takeUp = t.takeUp.withOwn o before := by
  set u := t.withOwn o before with hu
  by_cases idle : t.session.running ≠ none ∨ t.session.takenUp = true ∨ t.session.inbox = []
  · rw [takeUp_idle idle, takeUp_idle (t := u) idle]
  · simp only [ne_eq, not_or, not_not, Bool.not_eq_true] at idle
    obtain ⟨running, left, inbox⟩ := idle
    obtain ⟨call, rest, inbox⟩ := List.exists_cons_of_ne_nil inbox
    by_cases isOpen : t.session.phase = .opened
    · rw [takeUp_open running left inbox isOpen, takeUp_open (t := u) running left inbox isOpen]
      rfl
    · rw [takeUp_ended running left inbox isOpen, takeUp_ended (t := u) running left inbox isOpen]
      rfl

theorem handle_withOwn : (t.withOwn o before).handle = t.handle.withOwn o before := by
  set u := t.withOwn o before with hu
  by_cases idle : t.session.running ≠ none ∨ t.session.takenUp = false ∨ t.session.inbox = []
  · rw [handle_idle idle, handle_idle (t := u) idle]
  · simp only [ne_eq, not_or, not_not, Bool.not_eq_false] at idle
    obtain ⟨running, taken, inbox⟩ := idle
    obtain ⟨call, rest, inbox⟩ := List.exists_cons_of_ne_nil inbox
    cases accepts : t.session.registry.accept call.action call.payload with
    | error fault =>
      rw [handle_declined running taken inbox accepts,
        handle_declined (t := u) running taken inbox accepts, hu, replies_withOwn]
      simp [withOwn]
    | ok r =>
      rw [handle_entered running taken inbox accepts,
        handle_entered (t := u) running taken inbox accepts]
      simp [hu, withOwn]

theorem finish_withOwn (answer : Answer) :
    (t.withOwn o before).finish answer = (t.finish answer).withOwn o before := by
  cases running : t.session.running with
  | none => rw [finish_idle running, finish_idle (t := t.withOwn o before) running]
  | some r =>
    rw [finish_running running, finish_running (t := t.withOwn o before) running, replies_withOwn]
    simp [withOwn]

/-- Closing is not blind to own calls, which it ends, but does the same to what the peer needs. -/
theorem closing_peer {t u : Turn} (same : Half.peer.only t = Half.peer.only u)
    (step : ClosingStep) : Half.peer.only (t.closing step) = Half.peer.only (u.closing step) := by
  have phase : t.session.phase = u.session.phase := congrArg (·.session.phase) same
  have done : t.session.abandoned.isSome = u.session.abandoned.isSome := by
    simpa [Half.peer] using congrArg (·.session.abandoned.isSome) same
  cases step with
  | start =>
    by_cases isOpen : t.session.phase = .opened
    · rw [closing, closing, beginClose_of_open isOpen, beginClose_of_open (phase ▸ isOpen)]
      exact congrArg (fun w => { w with
        session := { w.session with phase := .closing, abandoned := none } }) same
    · rw [closing, closing, beginClose_of_not_open isOpen, beginClose_of_not_open (phase ▸ isOpen),
        same]
  | abandon =>
    -- what the failing of the own calls leaves for the peer
    have failed : ∀ t : Turn, t.session.phase = .closing → t.session.abandoned = none →
        Half.peer.only t.abandon = { Half.peer.only t with
          session := { (Half.peer.only t).session with abandoned := some 0 } } := by
      intro t closing first
      rw [abandon_of_closing closing first]
      cases slot : t.session.slot.slot <;> simp [Half.peer, Supervisor.hasLoop_release]
    have first : t.session.abandoned = none ↔ u.session.abandoned = none := by
      rw [← Option.not_isSome_iff_eq_none, ← Option.not_isSome_iff_eq_none, done]
    by_cases due : t.session.phase = .closing ∧ t.session.abandoned = none
    · rw [closing, closing, failed t due.1 due.2, failed u (phase ▸ due.1) (first.1 due.2), same]
    · rw [closing, closing, abandon_idle due, abandon_idle (by rwa [← phase, ← first]), same]
  | finish =>
    by_cases due : t.session.phase = .closing ∧ t.session.abandoned.isSome
    · obtain ⟨n, some⟩ := Option.isSome_iff_exists.1 due.2
      obtain ⟨m, some'⟩ := Option.isSome_iff_exists.1 (done ▸ due.2)
      rw [closing, closing, endClose_of_abandoned due.1 some,
        endClose_of_abandoned (phase ▸ due.1) some']
      exact congrArg (fun w => { w with
        session := { w.session with linked := false, phase := .closed } }) same
    · rw [closing, closing, endClose_idle due, endClose_idle (by rwa [← phase, ← done]), same]

end Turn

end ChargeLink

import ChargeLink.Proofs.Session.Notes
import ChargeLink.Proofs.Session.Stopped

/-!
# Stations in the custody of a server

A server holds on to every session, takes the notes of its station now and then,
and gives up its transport only by closing it. Under these terms a session has
its transport until it is closed, and then it is over, with all its calls settled.

* `Station.Kept.deed`: whatever a server lets a station do, the station stays in its custody.
* `Station.Kept.over`: a closed session in custody has settled all its calls.
-/

namespace ChargeLink

/-- A step of closing brings a session on its way, gives up the transport only in the end, and
counts nothing once that is reached. -/
theorem Turn.closing_onward (t : Turn) (step : ClosingStep) :
    t.session.phase ≤ (t.closing step).session.phase ∧
      ((t.closing step).session.phase ≠ .closed →
        (t.closing step).session.linked = t.session.linked) ∧
      (t.session.phase = .closed →
        (t.closing step).session.abandoned = t.session.abandoned) ∧
      (t.closing step).session.number = t.session.number ∧
      (t.closing step).session.chargePointId = t.session.chargePointId := by
  by_cases idle : t.closing step = t
  · rw [idle]
    exact ⟨Phase.le_refl _, fun _ => rfl, fun _ => rfl, rfl, rfl⟩
  cases step with
  | start =>
    by_cases isOpen : t.session.phase = .opened
    · rw [closing, beginClose_of_open isOpen, isOpen]
      exact ⟨Phase.opened_le _, fun _ => rfl, (fun closed => by cases closed), rfl, rfl⟩
    · exact absurd (beginClose_of_not_open isOpen) idle
  | abandon =>
    by_cases due : t.session.phase = .closing ∧ t.session.abandoned = none
    · rw [closing, abandon_of_closing due.1 due.2, due.1]
      exact ⟨Phase.le_refl _, fun _ => rfl, (fun closed => by cases closed), rfl, rfl⟩
    · exact absurd (abandon_idle due) idle
  | finish =>
    by_cases due : t.session.phase = .closing ∧ t.session.abandoned.isSome
    · obtain ⟨closing, some⟩ := due
      obtain ⟨n, done⟩ := Option.isSome_iff_exists.1 some
      rw [Turn.closing, endClose_of_abandoned closing done]
      exact ⟨Phase.le_closed _, fun going => absurd rfl going, fun _ => rfl, rfl, rfl⟩
    · exact absurd (endClose_idle due) idle

/-- The calls that wait are those without an outcome, each of them once. -/
theorem Accounts.waiting {c : Chronicle} (h : Accounts ⟨c, none⟩) :
    (c.session.waiting.map Owner.ticket).Nodup ∧
      ∀ k, k ∈ c.session.waiting.map Owner.ticket ↔ k < c.asked.length ∧ k ∉ c.log.settled := by
  have places : ∀ k, c.log.settled.count k + (c.session.waiting.map Owner.ticket).count k =
      if k < c.asked.length then 1 else 0 := by
    intro k
    have once := h.places k
    simp only [Desk.places, Option.toList_none, List.map_nil, List.count_nil] at once
    rw [Session.tickets_waiting, List.count_append, show c.asked.length = _ from h.asked, ← once]
    omega
  constructor
  · rw [List.nodup_iff_count_le_one]
    intro k
    have := places k
    split at this <;> omega
  · intro k
    have := places k
    rw [← List.count_pos_iff, ← List.count_eq_zero]
    split at this <;> omega

namespace Station

/-! ## What may happen to a station in custody -/

/-- What may happen to the station of a server: anything that may happen to a station, except that
its transport goes away or the session is let go of. -/
inductive Deed : Station → Station → Prop
  | issue {s} (number : ℕ) (m : Message) (v : Value) (retry : Bool)
      (fresh : number ∉ s.callers.map Caller.number) : Deed s (s.issue number m v retry)
  | receive {s} (text : String) : Deed s (s.act fun t => t.receive text)
  | closing {s} (step : ClosingStep) : Deed s (s.act fun t => t.closing step)
  | takeUp {s} : Deed s (s.act Turn.takeUp)
  | handle {s} : Deed s (s.act Turn.handle)
  | forget {s} (number : ℕ) : Deed s (s.forget number)
  | work {s w} (limit : ℕ) (next : s.work? limit = some w) : Deed s (s.perform w)
  | pass {s} (time : ℕ) (later : s.now ≤ time) (idle : s.work? time = none) :
      Deed s { s with now := time }
  | retally {s} (tally : Tally) : Deed s { s with tally }
  /-- Somebody looks at what has happened. -/
  | takeNotes {s} : Deed s s.takeNotes.2

/-- The station `t` may follow `s` in custody after any number of deeds. -/
abbrev Deeds : Station → Station → Prop :=
  Relation.ReflTransGen Deed

variable {s t u : Station} {taken : List Note}

/-- Closing a session at once is a matter of deeds, -/
theorem deeds_close (s : Station) : Deeds s s.close.2 := by
  by_cases isOpen : s.session.phase = .opened
  · rw [close_of_open isOpen]
    exact .tail (.tail (.single (.closing .start)) (.closing .abandon)) (.closing .finish)
  · rw [close_of_not_open isOpen]

/-- after which an open session is closed, -/
theorem closed_close (isOpen : s.session.phase = .opened) :
    s.close.2.session.phase = .closed := by
  rw [show s.close.2.session = s.turn.close.2.session from session_adopt ..,
    Turn.close_of_open (t := s.turn) isOpen]

/-- which has counted the calls that it has abandoned, -/
theorem close_fst (isOpen : s.session.phase = .opened) :
    s.close.1 = s.close.2.session.abandoned.getD 0 := by
  rw [show s.close.2.session = s.turn.close.2.session from session_adopt ..,
    show s.close.1 = s.turn.close.1 from rfl, Turn.close_of_open (t := s.turn) isOpen]
  rfl

/-- and no session is open. -/
theorem ended_close (s : Station) : s.close.2.session.phase ≠ .opened := by
  by_cases isOpen : s.session.phase = .opened
  · simp [closed_close isOpen]
  · rwa [close_of_not_open isOpen]

/-- A session that somebody is closing is closed by the steps that are left. -/
theorem closed_of_closing (closing : s.session.phase = .closing) :
    ((s.act fun t => t.closing .abandon).act fun t => t.closing .finish).session.phase =
      .closed := by
  set t := s.act fun t => t.closing .abandon
  have session : t.session = (s.turn.closing .abandon).session := session_adopt ..
  obtain ⟨n, going, counted⟩ : ∃ n, t.session.phase = .closing ∧ t.session.abandoned = some n := by
    rw [session, Turn.closing]
    cases abandoned : s.session.abandoned with
    | none =>
      rw [Turn.abandon_of_closing (t := s.turn) closing abandoned]
      exact ⟨_, closing, rfl⟩
    | some n =>
      have same : s.turn.abandon = s.turn := Turn.abandon_idle fun due => by
        rw [show s.turn.session.abandoned = some n from abandoned] at due
        cases due.2
      rw [same]
      exact ⟨n, closing, abandoned⟩
  rw [show (t.act fun t => t.closing .finish).session = (t.turn.closing .finish).session from
    session_adopt .., Turn.closing, Turn.endClose_of_abandoned (t := t.turn) going counted]

/-- From `s` to `t` the session is the same; unless it is closed, it has its transport, and once it
is closed, what it has counted stands. -/
structure Carries (s t : Station) : Prop where
  number : t.session.number = s.session.number
  chargePointId : t.session.chargePointId = s.session.chargePointId
  phase : s.session.phase ≤ t.session.phase
  linked : t.session.phase ≠ .closed → t.session.linked = s.session.linked
  counted : s.session.phase = .closed → t.session.abandoned = s.session.abandoned
  gone : t.gone = s.gone
  held : t.held = s.held

namespace Carries

/-- Something else changes than the session. -/
theorem same (session : t.session = s.session) (gone : t.gone = s.gone) (held : t.held = s.held) :
    Carries s t := by
  refine ⟨?_, ?_, ?_, ?_, ?_, gone, held⟩ <;> simp [session, Phase.le_refl]

theorem isOpen (h : Carries s t) (opened : t.session.phase = .opened) :
    s.session.phase = .opened :=
  Phase.eq_opened_of_le h.phase opened

theorem closed (h : Carries s t) (closed : s.session.phase = .closed) :
    t.session.phase = .closed :=
  Phase.eq_closed_of_le h.phase closed

theorem trans (h : Carries s t) (h' : Carries t u) : Carries s u := by
  refine ⟨h'.number.trans h.number, h'.chargePointId.trans h.chargePointId,
    Phase.le_trans h.phase h'.phase, fun going => ?_, fun closed => ?_, h'.gone.trans h.gone,
    h'.held.trans h.held⟩
  · exact (h'.linked going).trans (h.linked fun closed => going (h'.closed closed))
  · exact (h'.counted (h.closed closed)).trans (h.counted closed)

/-- What a turn has brought about is taken in. -/
theorem adopt {w : Turn} (stays : s.turn.Stays w) : Carries s (s.adopt w) := by
  have takes := Takes.foldl w.now w.effects { s with session := w.session, timers := w.timers }
  refine ⟨?_, ?_, ?_, fun _ => ?_, fun _ => ?_, takes.gone, takes.held⟩
  · rw [session_adopt]
    exact stays.number
  · rw [session_adopt]
    exact stays.chargePointId
  · rw [session_adopt, stays.phase]
    exact Phase.le_refl _
  · rw [session_adopt]
    exact stays.linked
  · rw [session_adopt]
    exact stays.abandoned

theorem closing (s : Station) (step : ClosingStep) :
    Carries s (s.act fun t => t.closing step) := by
  set w := s.turn.closing step
  have takes := Takes.foldl w.now w.effects { s with session := w.session, timers := w.timers }
  have session : (s.act fun t => t.closing step).session = w.session := session_adopt ..
  obtain ⟨phase, linked, counted, number, id⟩ := s.turn.closing_onward step
  exact ⟨session ▸ number, session ▸ id, session ▸ phase, session ▸ linked, session ▸ counted,
    takes.gone, takes.held⟩

theorem attempt (s : Station) (c : Caller) : Carries s (s.attempt c) := by
  have put : Carries s (s.putCaller (c.next s.session.issued)) := .same rfl rfl rfl
  rw [attempt_eq]
  exact put.trans (.adopt (.send ..))

/-- A station that is held does its work, and does not vanish. -/
theorem perform {w : Work} {limit : ℕ} (held : s.held = true) (next : s.work? limit = some w) :
    Carries s (s.perform w) := by
  cases w with
  | vanish =>
    -- only a station that nobody holds vanishes
    have abandoned : s.isAbandoned = true := by
      rcases work?_eq_some next with now | ⟨-, deadline, key, timer, -⟩
      · unfold workNow? at now
        split at now
        · cases now
        · split at now
          · assumption
          · split at now <;> cases now
      · obtain ⟨⟨x, -, vanish, -⟩ | ⟨x, -, vanish, -⟩, -⟩ := timer?_eq_some timer <;> cases vanish
    simp [isAbandoned, held] at abandoned
  | finish answer =>
    have idle : Carries s { s with ready := none } := .same rfl rfl rfl
    exact idle.trans (.adopt (.finish ..))
  | serve => exact .adopt (.serve _)
  | expiry x =>
    have waited : Carries s { s with
        now := max s.now x.deadline, timers := s.timers.abort x.key } := .same rfl rfl rfl
    rw [Station.perform, fireExpiry]
    simp only
    split
    · exact waited
    · exact waited.trans (.adopt (.handOn (.settle ..)))
  | wake x =>
    have woken : Carries s { s with
        now := max s.now x.deadline
        agenda := s.agenda.filter fun u => u.key != x.key } := .same rfl rfl rfl
    rw [Station.perform, fireWake]
    simp only
    split
    · exact woken.trans (.adopt (.finish ..))
    · split
      · exact woken.trans (attempt ..)
      · exact woken

end Carries

/-! ## Custody -/

/-- The station is in custody: with the notes taken from it, it is one of a run; the server holds
its session; and until that is closed, it has its transport. -/
structure Kept (s : Station) (taken : List Note) : Prop where
  reachable : (s.restore taken).Reachable
  alive : s.gone = false
  held : s.held = true
  linked : s.session.phase ≠ .closed → s.session.linked = true

/-- A session that has just been opened. -/
theorem Kept.opened (number : ℕ) (chargePointId : String) (registry : Registry)
    (config : SessionConfig) (codec : Codec) (label : String) (loop : Bool) (now : ℕ)
    (tally : Tally) :
    Kept (.ofTurn (.openSession number chargePointId registry config codec label
      (.create loop) now) tally) [] :=
  ⟨.opened number chargePointId registry config codec label loop now tally, rfl, rfl, fun _ => rfl⟩

/-- A deed is a step of a run, and carries the session on. -/
theorem Deed.step (h : Deed s t) (alive : s.gone = false) (held : s.held = true)
    (taken : List Note) :
    (∃ taken', s.restore taken = t.restore taken' ∨ Step (s.restore taken) (t.restore taken')) ∧
      Carries s t := by
  have step : Step s t → ∃ taken', s.restore taken = t.restore taken' ∨
      Step (s.restore taken) (t.restore taken') := fun h => ⟨taken, .inr (h.restore taken)⟩
  cases h with
  | issue number m v retry fresh =>
    have joined : Carries s { s with callers := s.callers ++
        [⟨number, m, v, retry && m.transactional v, 0, .done, true⟩] } := .same rfl rfl rfl
    exact ⟨step (.issue number m v retry alive fresh), joined.trans (.attempt ..)⟩
  | receive text => exact ⟨step (.receive text alive), .adopt (.handOn (.hear ..))⟩
  | closing part => exact ⟨step (.closing part alive), .closing s part⟩
  | takeUp => exact ⟨step (.takeUp alive), .adopt (.takeUp _)⟩
  | handle => exact ⟨step (.handle alive), .adopt (.handle _)⟩
  | forget number => exact ⟨step (.forget number), .same rfl rfl rfl⟩
  | work limit next => exact ⟨step (.work limit next), .perform held next⟩
  | pass time later idle => exact ⟨step (.pass time later idle), .same rfl rfl rfl⟩
  | retally tally => exact ⟨step (.retally tally), .same rfl rfl rfl⟩
  | takeNotes =>
    exact ⟨⟨taken ++ s.notes, .inl (restore_takeNotes s taken).symm⟩, .same rfl rfl rfl⟩

/-- **What a server lets a station do leaves the station in its custody.** -/
theorem Kept.deed (h : s.Kept taken) (deed : Deed s t) :
    (∃ taken', t.Kept taken') ∧ Carries s t := by
  obtain ⟨⟨taken', step⟩, carries⟩ := deed.step h.alive h.held taken
  have reachable : (t.restore taken').Reachable := by
    rcases step with same | step
    · exact same ▸ h.reachable
    · exact h.reachable.step step
  refine ⟨⟨taken', reachable, carries.gone.trans h.alive, carries.held.trans h.held, ?_⟩, carries⟩
  exact fun going =>
    (carries.linked going).trans (h.linked fun closed => going (carries.closed closed))

theorem Kept.deeds (h : s.Kept taken) (deeds : Deeds s t) :
    (∃ taken', t.Kept taken') ∧ Carries s t := by
  induction deeds with
  | refl => exact ⟨⟨taken, h⟩, .same rfl rfl rfl⟩
  | tail _ deed ih =>
    obtain ⟨⟨taken', kept⟩, carries⟩ := ih
    obtain ⟨kept', carries'⟩ := kept.deed deed
    exact ⟨kept', carries.trans carries'⟩

/-- The work that needs no time is a matter of deeds. -/
theorem deeds_runFor (limit : ℕ) : ∀ (fuel : ℕ) (s : Station), Deeds s (runFor limit fuel s)
  | 0, s => .refl
  | fuel + 1, s => by
    rw [runFor]
    cases next : s.work? limit with
    | none => exact .refl
    | some w => exact .head (.work limit next) (deeds_runFor limit fuel (s.perform w))

/-- The calls that wait are those without an outcome. -/
theorem Kept.waiting (h : s.Kept taken) : ∃ m : Diary, (s.restore taken).Follows m ∧
    (s.session.waiting.map Owner.ticket).Nodup ∧
    ∀ k, k ∈ s.session.waiting.map Owner.ticket ↔ m.Unsettled k := by
  obtain ⟨m, follows⟩ := h.reachable.follows h.alive
  have waiting := (Accounts.of_reachable follows.reachable.desk).waiting
  have session : m.session = s.session := follows.session
  rw [show (m.at (s.restore taken).timers (s.restore taken).now).log = m.log from
    List.append_nil _, show (m.at (s.restore taken).timers (s.restore taken).now).session =
      s.session from session] at waiting
  exact ⟨m, follows, waiting⟩

/-- **A closed session in custody is over,** with all its calls settled and nobody waiting for
one. -/
theorem Kept.over (h : s.Kept taken) (closed : s.session.phase = .closed) :
    s.session.Over ∧ s.session.waiting = [] ∧ ∀ a ∈ s.callers, ∀ k, a.state ≠ .waiting k := by
  have stopped : (s.restore taken).Stopped := h.reachable.stopped h.alive closed
  have finished : s.session.Over := stopped.finished
  refine ⟨finished, ?_, fun a ha k state => stopped.attended.waiting a ha k state⟩
  simp [Session.waiting, finished.slot, finished.queue, PendingTable.empty]

end Station

end ChargeLink

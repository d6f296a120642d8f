import ChargeLink.Proofs.Session.Steps

/-!
# What never changes, and what only grows

A session keeps its number, registry, configuration, codec and label for life.
What it was asked, what it heard and what it brought about are only added to.

* `Chronicle.Step.grows`: so it is at every step.
* `Turn.Stays`: what no operation but closing and the loss of the transport changes.
-/

namespace ChargeLink

variable {c d e : Chronicle}

/-- The session of `d` is that of `c` later in its life. -/
structure Grows (c d : Chronicle) : Prop where
  number : d.session.number = c.session.number
  registry : d.session.registry = c.session.registry
  codec : d.session.codec = c.session.codec
  label : d.session.label = c.session.label
  config : d.session.config = c.session.config
  asked : c.asked <+: d.asked
  heard : c.heard <+: d.heard
  log : c.log <+: d.log

namespace Grows

theorem refl (c : Chronicle) : Grows c c :=
  ⟨rfl, rfl, rfl, rfl, rfl, List.prefix_rfl, List.prefix_rfl, List.prefix_rfl⟩

theorem trans (h : Grows c d) (h' : Grows d e) : Grows c e :=
  ⟨h'.number.trans h.number, h'.registry.trans h.registry, h'.codec.trans h.codec,
    h'.label.trans h.label, h'.config.trans h.config, h.asked.trans h'.asked,
    h.heard.trans h'.heard, h.log.trans h'.log⟩

theorem calls (h : Grows c d) : c.log.calls <+: d.log.calls :=
  h.log.filterMap _

theorem settlements (h : Grows c d) : c.log.settlements <+: d.log.settlements :=
  h.log.filterMap _

theorem texts (h : Grows c d) : c.log.texts <+: d.log.texts :=
  h.log.filterMap _

theorem dispatches (h : Grows c d) : c.log.dispatches <+: d.log.dispatches :=
  h.log.filterMap _

theorem returns (h : Grows c d) : c.log.returns <+: d.log.returns :=
  h.log.filterMap _

/-- What was asked for a ticket stays. -/
theorem asked_getElem? (h : Grows c d) {k : ℕ} {x : Message × Value} (hk : c.asked[k]? = some x) :
    d.asked[k]? = some x := by
  obtain ⟨later, hl⟩ := h.asked
  rw [← hl, List.getElem?_append_left (List.getElem?_eq_some_iff.1 hk).1]
  exact hk

/-- What is brought about comes after what was brought about before. -/
theorem log_becomes (c : Chronicle) (s : Session) (timers : Supervisor Expiry) (es : List Effect) :
    c.log <+: (c.becomes s timers es).log := by
  rw [Chronicle.log_becomes]
  exact List.prefix_append ..

theorem own {d e : Desk} (step : Own d e) : Grows d.chronicle e.chronicle := by
  cases step with
  | turnAway | enqueue | take =>
    exact ⟨rfl, rfl, rfl, rfl, rfl, List.prefix_append .., List.prefix_rfl, log_becomes ..⟩
  | takeNext | untimed | transmit | miss | lapse | stale | beginClose | abandon | endClose =>
    exact ⟨rfl, rfl, rfl, rfl, rfl, List.prefix_rfl, List.prefix_rfl, log_becomes ..⟩
  | answer =>
    exact ⟨rfl, rfl, rfl, rfl, rfl, List.prefix_rfl, List.prefix_append .., log_becomes ..⟩
  | handedOn => exact ⟨rfl, rfl, rfl, rfl, rfl, List.prefix_rfl, List.prefix_rfl, List.prefix_rfl⟩

theorem inbound (step : Inbound c d) : Grows c d := by
  cases step with
  | unmatched | buffer | refuse =>
    exact ⟨rfl, rfl, rfl, rfl, rfl, List.prefix_rfl, List.prefix_append .., log_becomes ..⟩
  | ignore | drop =>
    exact ⟨rfl, rfl, rfl, rfl, rfl, List.prefix_rfl, List.prefix_append .., List.prefix_rfl⟩
  | skip | takeUp | decline | enter | leave =>
    exact ⟨rfl, rfl, rfl, rfl, rfl, List.prefix_rfl, List.prefix_rfl, log_becomes ..⟩

theorem small {d e : Desk} (step : Small d e) : Grows d.chronicle e.chronicle := by
  cases step with
  | own step => exact own step
  | inbound step => exact inbound step
  | unlink => exact ⟨rfl, rfl, rfl, rfl, rfl, List.prefix_rfl, List.prefix_rfl, List.prefix_rfl⟩

theorem smalls {d e : Desk} (h : Smalls d e) : Grows d.chronicle e.chronicle := by
  induction h with
  | refl => exact .refl _
  | tail _ step ih => exact ih.trans (.small step)

theorem ambient (step : Ambient c d) : Grows c d := by
  have log : c.log <+: d.log := ⟨[], by rw [step.log, List.append_nil]⟩
  cases step <;> exact ⟨rfl, rfl, rfl, rfl, rfl, List.prefix_rfl, List.prefix_rfl, log⟩

end Grows

namespace Chronicle

/-- **A step adds to the record, and takes nothing away.** -/
theorem Step.grows (h : Step c d) : Grows c d := by
  rcases h.small with h | h
  · exact .smalls h
  · exact .ambient h

end Chronicle

/-! ## What no operation but closing changes -/

/-- From `t` to `u` the session is the same, and has come no closer to its end. -/
structure Turn.Stays (t u : Turn) : Prop where
  number : u.session.number = t.session.number
  chargePointId : u.session.chargePointId = t.session.chargePointId
  phase : u.session.phase = t.session.phase
  abandoned : u.session.abandoned = t.session.abandoned
  linked : u.session.linked = t.session.linked

namespace Turn.Stays

variable {t u w : Turn}

theorem refl (t : Turn) : Stays t t := ⟨rfl, rfl, rfl, rfl, rfl⟩

theorem trans (h : Stays t u) (h' : Stays u w) : Stays t w :=
  ⟨h'.number.trans h.number, h'.chargePointId.trans h.chargePointId, h'.phase.trans h.phase,
    h'.abandoned.trans h.abandoned, h'.linked.trans h.linked⟩

theorem transmit (t : Turn) (f : Frame) : Stays t (t.transmit f).2 := by
  unfold Turn.transmit
  split <;> exact ⟨rfl, rfl, rfl, rfl, rfl⟩

theorem start (t : Turn) (c : QueuedCall) : Stays t (t.start c) := by
  unfold Turn.start
  simp only
  split
  · exact ⟨rfl, rfl, rfl, rfl, rfl⟩
  · split
    · exact ⟨rfl, rfl, rfl, rfl, rfl⟩
    · rename_i key timers _ _ slot _
      set placed : Turn := { t.emit (.started c.owner.ticket) with
        timers, session := { t.session with slot } }
      set call : Frame := .call t.session.nextId c.action c.payload
      have sent : ∀ {r}, placed.transmit call = r → Stays t r.2 := by
        rintro _ rfl
        exact trans (u := placed) ⟨rfl, rfl, rfl, rfl, rfl⟩ (transmit ..)
      split
      · rename_i transmitted
        exact (sent transmitted).trans ⟨rfl, rfl, rfl, rfl, rfl⟩
      · rename_i transmitted
        split <;> exact (sent transmitted).trans ⟨rfl, rfl, rfl, rfl, rfl⟩

theorem submit (t : Turn) (c : QueuedCall) : Stays t (t.submit c) := by
  unfold Turn.submit
  split
  · exact ⟨rfl, rfl, rfl, rfl, rfl⟩
  · split
    · exact trans (u := t.emit (.accepted c.owner.ticket)) ⟨rfl, rfl, rfl, rfl, rfl⟩ (start ..)
    · split <;> exact ⟨rfl, rfl, rfl, rfl, rfl⟩

theorem send (t : Turn) (m : Message) (v : Value) : Stays t (t.send m v).2 := by
  have ticket : Stays t { t with session := { t.session with issued := t.session.issued + 1 } } :=
    ⟨rfl, rfl, rfl, rfl, rfl⟩
  unfold Turn.send
  simp only
  split
  · exact ⟨rfl, rfl, rfl, rfl, rfl⟩
  · split
    · exact ⟨rfl, rfl, rfl, rfl, rfl⟩
    · exact ticket.trans (submit ..)

theorem pumpFrom : ∀ (q : List QueuedCall) (t : Turn), Stays t (t.pumpFrom q)
  | [], t => ⟨rfl, rfl, rfl, rfl, rfl⟩
  | c :: rest, t => by
    unfold Turn.pumpFrom
    split
    · have next : Stays t { t with session := { t.session with queue := rest } } :=
        ⟨rfl, rfl, rfl, rfl, rfl⟩
      exact (next.trans (start ..)).trans (pumpFrom rest _)
    · exact ⟨rfl, rfl, rfl, rfl, rfl⟩

theorem settle (t : Turn) (id : String) (raw : RawOutcome) : Stays t (t.settle id raw).2 := by
  unfold Turn.settle
  split <;> exact ⟨rfl, rfl, rfl, rfl, rfl⟩

theorem answered (t : Turn) (id : String) (raw : RawOutcome) : Stays t (t.answered id raw).2 := by
  have settled := settle t id raw
  unfold Turn.answered
  split
  · rename_i u same
    rw [same] at settled
    exact settled
  · rename_i u same
    rw [same] at settled
    exact settled.trans ⟨rfl, rfl, rfl, rfl, rfl⟩

theorem handOn {r : Bool × Turn} (h : Stays t r.2) : Stays t (Turn.handOn r) := by
  obtain ⟨left, u⟩ := r
  cases left with
  | false => exact h
  | true => exact h.trans (pumpFrom ..)

theorem hear (t : Turn) (text : String) : Stays t (t.hear text).2 := by
  unfold Turn.hear
  split
  · rename_i f _
    cases f with
    | call =>
      simp only [Turn.accept]
      split <;> exact ⟨rfl, rfl, rfl, rfl, rfl⟩
    | result | error => exact answered ..
  · simp only [Turn.refuse]
    split
    · exact transmit ..
    · exact refl t

theorem reply (t : Turn) (c : InboundCall) (result : Except DispatchFault Json) :
    Stays t (t.reply c result) := by
  rw [reply_eq]
  exact ⟨rfl, rfl, rfl, rfl, rfl⟩

theorem takeUp (t : Turn) : Stays t t.takeUp := by
  unfold Turn.takeUp
  split
  · split <;> exact ⟨rfl, rfl, rfl, rfl, rfl⟩
  · exact refl t

theorem handle (t : Turn) : Stays t t.handle := by
  unfold Turn.handle
  split
  · rename_i rest _ _ _
    refine trans (u := { t with session := { t.session with inbox := rest, takenUp := false } })
      ⟨rfl, rfl, rfl, rfl, rfl⟩ ?_
    simp only
    split
    · exact reply ..
    · exact ⟨rfl, rfl, rfl, rfl, rfl⟩
  · exact refl t

theorem serve (t : Turn) : Stays t t.serve :=
  (takeUp t).trans (handle _)

theorem finish (t : Turn) (answer : Answer) : Stays t (t.finish answer) := by
  cases running : t.session.running with
  | none =>
    rw [finish_idle running]
    exact refl t
  | some r =>
    rw [finish_running running]
    exact ⟨rfl, rfl, rfl, rfl, rfl⟩

end Turn.Stays

end ChargeLink

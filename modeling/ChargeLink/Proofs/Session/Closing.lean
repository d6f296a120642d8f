import ChargeLink.Proofs.Session.Accounts

/-!
# After the end of a session

A session that has been closed has no transport, no outstanding call and no
queue, and nothing gives it back any of them. Whatever happens to it then,
nothing is transmitted, and no handler is entered but that of a call which the
worker had taken up before.

* `Chronicle.Steps.phase_le`: the phase of a session never goes back.
* `Session.Over.small`: what is over stays so, and ebbs away.
* `Chronicle.Reachable.over`: a closed session is over.
-/

namespace ChargeLink

variable {c d : Chronicle}

/-! ## The phase -/

namespace Phase

theorem le_refl (p : Phase) : p ≤ p :=
  Nat.le_refl p.rank

theorem le_trans {p q r : Phase} (h : p ≤ q) (h' : q ≤ r) : p ≤ r :=
  Nat.le_trans (m := q.rank) h h'

theorem opened_le (p : Phase) : .opened ≤ p := by
  cases p <;> decide

theorem le_closed (p : Phase) : p ≤ .closed := by
  cases p <;> decide

theorem eq_opened_of_le {p q : Phase} (h : p ≤ q) (opened : q = .opened) : p = .opened := by
  subst opened
  cases p <;> first | rfl | exact absurd h (by decide)

theorem eq_closed_of_le {p q : Phase} (h : p ≤ q) (closed : p = .closed) : q = .closed := by
  subst closed
  cases q <;> first | rfl | exact absurd h (by decide)

end Phase

namespace Chronicle

theorem smalls_phase_le {d e : Desk} (h : Smalls d e) :
    d.chronicle.session.phase ≤ e.chronicle.session.phase := by
  induction h with
  | refl => exact Phase.le_refl _
  | tail _ step ih =>
    refine Phase.le_trans ih ?_
    cases step with
    | own step =>
      cases step with
      | beginClose isOpen =>
        rw [isOpen]
        exact Phase.opened_le _
      | endClose => exact Phase.le_closed _
      | _ => exact Phase.le_refl _
    | inbound step =>
      rw [step.same.phase]
      exact Phase.le_refl _
    | unlink => exact Phase.le_refl _

/-- **The phase of a session never goes back.** -/
theorem Steps.phase_le (h : Steps c d) : c.session.phase ≤ d.session.phase := by
  induction h with
  | refl => exact Phase.le_refl _
  | tail _ step ih =>
    refine Phase.le_trans ih ?_
    rcases step.small with small | ambient
    · exact smalls_phase_le small
    · rw [ambient.session]
      exact Phase.le_refl _

end Chronicle

/-! ## Sessions that are over -/

/-- The session is closed, and nothing is left of its calls and its transport. -/
structure Session.Over (s : Session) : Prop where
  phase : s.phase = .closed
  unlinked : s.linked = false
  slot : s.slot = .empty
  queue : s.queue = []

/-- From `c` to `d`, nothing is transmitted, and no handler is entered but that of a call which the
worker had taken up: the first one of the inbox, which stays there until then. -/
structure Chronicle.Ebbs (c d : Chronicle) : Prop where
  texts : d.log.texts = c.log.texts
  entries : ∃ late, d.log.entries = c.log.entries ++ late ∧
    late.length + d.session.takenUp.toNat ≤ c.session.takenUp.toNat ∧
    ∀ x ∈ late, c.session.inbox.head? = some x.1
  inbox : d.session.takenUp = true → d.session.inbox = c.session.inbox

namespace Chronicle.Ebbs

variable {e : Chronicle}

/-- No handler is entered, and no call is taken up. -/
theorem still (texts : d.log.texts = c.log.texts) (entries : d.log.entries = c.log.entries)
    (taken : d.session.takenUp = true →
      c.session.takenUp = true ∧ d.session.inbox = c.session.inbox) : Ebbs c d := by
  refine ⟨texts, ⟨[], by rw [entries, List.append_nil], ?_, by simp⟩, fun h => (taken h).2⟩
  cases h : d.session.takenUp with
  | false => exact Nat.zero_le _
  | true => simp [(taken h).1]

/-- Nor does anything befall the worker. -/
theorem aside (texts : d.log.texts = c.log.texts) (entries : d.log.entries = c.log.entries)
    (takenUp : d.session.takenUp = c.session.takenUp) (inbox : d.session.inbox = c.session.inbox) :
    Ebbs c d :=
  still texts entries fun h => ⟨takenUp ▸ h, inbox⟩

theorem refl (c : Chronicle) : Ebbs c c :=
  aside rfl rfl rfl rfl

/-- The handler of the call that was taken up is entered. -/
theorem enter {call : InboundCall} {h : Handler} {v : Value}
    (texts : d.log.texts = c.log.texts)
    (entries : d.log.entries = c.log.entries ++ [(call, h, v)])
    (taken : c.session.takenUp = true) (left : d.session.takenUp = false)
    (inbox : c.session.inbox.head? = some call) : Ebbs c d := by
  refine ⟨texts, ⟨_, entries, by simp [taken, left], fun x hx => ?_⟩, fun taken => ?_⟩
  · rwa [List.mem_singleton.1 hx]
  · rw [left] at taken
    cases taken

theorem trans (h : Ebbs c d) (h' : Ebbs d e) : Ebbs c e := by
  obtain ⟨texts, ⟨late, entries, bound, own⟩, inbox⟩ := h
  obtain ⟨texts', ⟨late', entries', bound', own'⟩, inbox'⟩ := h'
  refine ⟨texts'.trans texts, ⟨late ++ late', ?_, ?_, ?_⟩, ?_⟩
  · rw [entries', entries, List.append_assoc]
  · rw [List.length_append]
    omega
  · intro x hx
    rcases List.mem_append.1 hx with hx | hx
    · exact own x hx
    -- whatever is entered later was still in the inbox
    · have taken : d.session.takenUp = true := by
        have := List.length_pos_of_mem hx
        cases h : d.session.takenUp with
        | true => rfl
        | false =>
          rw [h, Bool.toNat_false] at bound'
          omega
      rw [← inbox taken]
      exact own' x hx
  · intro taken
    have before : d.session.takenUp = true := by
      cases h : d.session.takenUp with
      | true => rfl
      | false => simp [h, taken] at bound'
    rw [inbox' taken, inbox before]

end Chronicle.Ebbs

namespace Session.Over

theorem not_open {s : Session} (h : s.Over) : s.phase ≠ .opened := by
  rw [h.phase]
  decide

theorem not_closing {s : Session} (h : s.Over) : s.phase ≠ .closing := by
  rw [h.phase]
  decide

/-- No own call starts, and none ends. -/
theorem own {d e : Desk} (h : d.chronicle.session.Over) (free : d.hand = none) (step : Own d e) :
    e.chronicle.session.Over ∧ e.hand = none ∧ d.chronicle.Ebbs e.chronicle := by
  have ended := h.not_open
  have done := h.not_closing
  obtain ⟨phase, unlinked, slot, queue⟩ := h
  cases step with
  | turnAway | stale =>
    refine ⟨⟨phase, unlinked, slot, queue⟩, rfl, .aside ?_ ?_ rfl rfl⟩ <;>
      simp [Chronicle.log_becomes]
  | enqueue fit isOpen | take fit isOpen | takeNext isOpen | beginClose isOpen =>
    exact absurd isOpen ended
  | abandon closing | endClose closing => exact absurd closing done
  | untimed | transmit | miss => cases free
  | answer decodes answers held | lapse armed due held =>
    rw [slot] at held
    cases held
  | handedOn => exact ⟨⟨phase, unlinked, slot, queue⟩, rfl, .aside rfl rfl rfl rfl⟩

/-- No call of the peer is taken up or answered, and no text is refused. -/
theorem inbound (h : c.session.Over) (step : Inbound c d) :
    d.session.Over ∧ c.Ebbs d := by
  have silent : ∀ call result, c.session.replies call result = [] := by
    intro call result
    rw [Session.replies, h.unlinked, if_neg Bool.false_ne_true]
  have finished : d.session.Over := by
    obtain ⟨phase, unlinked, slot, queue⟩ := h
    cases step <;> exact ⟨phase, unlinked, slot, queue⟩
  refine ⟨finished, ?_⟩
  cases step with
  | unmatched => refine .aside ?_ ?_ rfl rfl <;> simp [Chronicle.log_becomes]
  | buffer decodes isOpen | takeUp idle left inbox isOpen => exact absurd isOpen h.not_open
  | refuse fails answerable linked =>
    rw [h.unlinked] at linked
    cases linked
  | ignore | drop => exact .aside rfl rfl rfl rfl
  | skip idle left =>
    refine .still (by simp [Chronicle.log_becomes]) (by simp [Chronicle.log_becomes]) ?_
    exact fun taken => absurd (left.symm.trans taken) (by decide)
  | decline =>
    refine .still ?_ ?_ (fun taken => by cases taken) <;> simp [Chronicle.log_becomes, silent]
  | @enter call rest handler request idle taken inbox =>
    refine .enter (h := handler) (v := request) ?_ ?_ taken rfl (by rw [inbox]; rfl) <;>
      simp [Chronicle.log_becomes]
  | leave =>
    refine .aside ?_ ?_ rfl rfl <;> simp [Chronicle.log_becomes, silent]

/-- **What is over stays so, and ebbs away.** -/
theorem small {d e : Desk} (h : d.chronicle.session.Over) (free : d.hand = none)
    (step : Small d e) :
    e.chronicle.session.Over ∧ e.hand = none ∧ d.chronicle.Ebbs e.chronicle := by
  cases step with
  | own step => exact h.own free step
  | inbound step =>
    obtain ⟨finished, ebbs⟩ := h.inbound step
    exact ⟨finished, rfl, ebbs⟩
  | unlink =>
    obtain ⟨phase, unlinked, slot, queue⟩ := h
    exact ⟨⟨phase, rfl, slot, queue⟩, rfl, .aside rfl rfl rfl rfl⟩

theorem smalls {d e : Desk} (h : d.chronicle.session.Over) (free : d.hand = none)
    (steps : Smalls d e) :
    e.chronicle.session.Over ∧ e.hand = none ∧ d.chronicle.Ebbs e.chronicle := by
  induction steps with
  | refl => exact ⟨h, free, .refl _⟩
  | tail _ step ih =>
    obtain ⟨finished, free, ebbs⟩ := ih
    obtain ⟨finished', free', ebbs'⟩ := finished.small free step
    exact ⟨finished', free', ebbs.trans ebbs'⟩

/-- So it is however much time passes. -/
theorem steps (h : c.session.Over) (steps : Chronicle.Steps c d) :
    d.session.Over ∧ c.Ebbs d := by
  induction steps with
  | refl => exact ⟨h, .refl _⟩
  | tail _ step ih =>
    obtain ⟨finished, ebbs⟩ := ih
    rcases step.small with small | ambient
    · obtain ⟨finished', -, ebbs'⟩ := finished.smalls rfl small
      exact ⟨finished', ebbs.trans ebbs'⟩
    · refine ⟨ambient.session ▸ finished, ebbs.trans ?_⟩
      exact .aside (by rw [ambient.log]) (by rw [ambient.log]) (by rw [ambient.session])
        (by rw [ambient.session])

/-- A send fails at once. -/
theorem send_fails {t : Turn} (h : t.session.Over) (m : Message) (v : Value) :
    ∃ f, (t.send m v).2 = { t with
      session := { t.session with issued := t.session.issued + 1 }
      effects := t.effects ++ [.settled t.session.issued (.error f)] } := by
  rcases t.session.turnsAway_or m v with ⟨f, why⟩ | ⟨p, fit, isOpen, -⟩
  · exact ⟨f, Turn.send_away why⟩
  · exact absurd isOpen h.not_open

end Session.Over

namespace Chronicle

/-- **A closed session is over.** -/
theorem Reachable.over (h : c.Reachable) (closed : c.session.phase = .closed) :
    c.session.Over := by
  have sound := Sound.of_reachable h.desk
  obtain ⟨done, unlinked⟩ := sound.closed closed
  obtain ⟨slot, queue⟩ := sound.ended (by rw [closed]; decide) done
  exact ⟨closed, unlinked, slot, queue⟩

end Chronicle

end ChargeLink

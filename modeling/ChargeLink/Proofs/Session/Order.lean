import ChargeLink.Proofs.Session.Accounts
import ChargeLink.Proofs.Session.Growth

/-!
# Calls start in order and on time

Accepted calls are started in the order of their acceptance. Each starts at the
later of its acceptance and the settling of the accepted call before it, also
when other sends come between a settling and the handing on of the slot; it is
settled within the time allowed from its start, and times out only at the end
of it.

* `Numbered`: sends are accepted in the order in which they were asked for.
* `Line`: the accepted calls are the started ones, the one in hand, the queue.
* `Punctual`: a started call is outstanding or was settled in time.
* `Turns`: every start is in turn.
* `Chronicle.Reachable.order`: all of it, for every run.
-/

namespace ChargeLink

variable {d e : Desk} {c : Chronicle}

/-! ## Tickets -/

/-- Sends are accepted in the order of their tickets, each once. -/
structure Numbered (c : Chronicle) : Prop where
  ascending : (c.log.acceptances.map Prod.fst).Pairwise (· < ·)
  issued : ∀ k ∈ c.log.acceptances.map Prod.fst, k < c.session.issued

namespace Numbered

/-- Nothing is accepted. -/
theorem keep {d : Chronicle} (h : Numbered c) (acceptances : d.log.acceptances = c.log.acceptances)
    (issued : c.session.issued ≤ d.session.issued) : Numbered d := by
  constructor
  · rw [acceptances]
    exact h.ascending
  · rw [acceptances]
    intro k hk
    exact Nat.lt_of_lt_of_le (h.issued k hk) issued

/-- The next ticket is accepted. -/
theorem accept {d : Chronicle} (h : Numbered c)
    (acceptances : d.log.acceptances = c.log.acceptances ++ [(c.session.issued, c.now)])
    (issued : d.session.issued = c.session.issued + 1) : Numbered d := by
  have tickets : d.log.acceptances.map Prod.fst =
      c.log.acceptances.map Prod.fst ++ [c.session.issued] := by
    rw [acceptances, List.map_append]
    rfl
  constructor
  · rw [tickets, List.pairwise_append]
    refine ⟨h.ascending, List.pairwise_singleton .., ?_⟩
    intro k hk j hj
    rw [List.mem_singleton.1 hj]
    exact h.issued k hk
  · rw [tickets, issued]
    intro k hk
    rcases List.mem_append.1 hk with hk | hk
    · have := h.issued k hk
      omega
    · rw [List.mem_singleton.1 hk]
      omega

theorem own (h : Numbered d.chronicle) (step : Own d e) : Numbered e.chronicle := by
  cases step with
  | turnAway =>
    refine h.keep ?_ (Nat.le_succ _)
    simp [Chronicle.log_becomes]
  | enqueue | take =>
    refine h.accept ?_ rfl
    simp [Chronicle.log_becomes]
  | takeNext | untimed | transmit | miss | answer | lapse | stale | handedOn | beginClose | abandon
  | endClose =>
    refine h.keep ?_ (Nat.le_refl _)
    simp [Chronicle.log_becomes]

/-- **Sends are accepted in the order of their tickets.** -/
theorem of_reachable (h : d.Reachable) : Numbered d.chronicle := by
  induction h with
  | opened =>
    constructor <;>
      simp [Chronicle.opened, Chronicle.log, Turn.openSession, Turn.publish, Turn.emit]
  | small _ step ih =>
    cases step with
    | own step => exact ih.own step
    | inbound step =>
      have same := step.same
      exact ih.keep same.acceptances (Nat.le_of_eq same.issued.symm)
    | unlink => exact ih.keep rfl (Nat.le_refl _)
  | ambient _ step ih =>
    refine ih.keep ?_ (Nat.le_of_eq (congrArg Session.issued step.session.symm))
    rw [step.log]

end Numbered

/-! ## The line -/

/-- The accepted calls are the started ones, then the one in hand, then the queue; a session that
is not open any more starts none of the rest. -/
structure Line (d : Desk) : Prop where
  started : d.chronicle.log.starts.map Prod.fst <+: d.chronicle.log.acceptances.map Prod.fst
  opened : d.chronicle.session.phase = .opened →
    d.chronicle.log.acceptances.map Prod.fst = d.chronicle.log.starts.map Prod.fst ++
      (d.hand.toList.map (·.owner.ticket) ++ d.chronicle.session.queued)

namespace Line

/-- While the session is open, the second half of `Line` is all of it. -/
theorem of_opened
    (h : d.chronicle.log.acceptances.map Prod.fst = d.chronicle.log.starts.map Prod.fst ++
      (d.hand.toList.map (·.owner.ticket) ++ d.chronicle.session.queued)) : Line d :=
  ⟨⟨_, h.symm⟩, fun _ => h⟩

/-- Nothing happens to the line. -/
theorem same (h : Line d)
    (acceptances : e.chronicle.log.acceptances = d.chronicle.log.acceptances)
    (starts : e.chronicle.log.starts = d.chronicle.log.starts)
    (phase : e.chronicle.session.phase = d.chronicle.session.phase)
    (queue : e.chronicle.session.queue = d.chronicle.session.queue)
    (hand : e.hand = d.hand) : Line e := by
  constructor
  · rw [acceptances, starts]
    exact h.started
  · rw [acceptances, starts, phase, hand, Session.queued, queue]
    exact h.opened

theorem own (h : Line d) (sound : Sound d.chronicle d.hand) (step : Own d e) : Line e := by
  cases step with
  | turnAway =>
    refine h.same ?_ ?_ rfl rfl rfl <;> simp [Chronicle.log_becomes]
  | enqueue fit isOpen taken room =>
    refine of_opened ?_
    have := h.opened isOpen
    simp [Chronicle.log_becomes, this, Session.queued, Session.nextCall]
  | take fit isOpen idle =>
    refine of_opened ?_
    have := h.opened isOpen
    simp [Chronicle.log_becomes, this, Session.queued, Session.nextCall, idle.1]
  | takeNext isOpen free queue =>
    refine of_opened ?_
    have := h.opened isOpen
    simp [Chronicle.log_becomes, this, Session.queued, queue]
  | untimed | transmit | miss =>
    refine of_opened ?_
    have := h.opened (sound.ready rfl).1
    simp [Chronicle.log_becomes, this, Session.queued]
  | answer | lapse | stale | handedOn =>
    refine h.same ?_ ?_ rfl rfl rfl <;> simp [Chronicle.log_becomes]
  | beginClose | endClose =>
    refine ⟨?_, by simp⟩
    simpa [Chronicle.log_becomes] using h.started
  | abandon closing =>
    refine ⟨?_, by simp [closing]⟩
    simpa [Chronicle.log_becomes] using h.started

/-- **The line is kept.** -/
theorem of_reachable (h : d.Reachable) : Line d := by
  induction h with
  | opened => exact of_opened rfl
  | small reachable step ih =>
    cases step with
    | own step => exact ih.own (.of_reachable reachable) step
    | inbound step =>
      have := step.same
      exact ih.same this.acceptances this.starts this.phase this.queue rfl
    | unlink => exact ih.same rfl rfl rfl rfl rfl
  | ambient _ step ih =>
    exact ih.same (by rw [step.log]) (by rw [step.log]) (by rw [step.session])
      (by rw [step.session]) rfl

end Line

/-! ## Time allowed for an answer -/

/-- A started call is outstanding or was settled within the time allowed from its start; only at
the end of that time does a call time out; and nothing that happened lies in the future. -/
structure Punctual (c : Chronicle) : Prop where
  last : ∀ call, c.session.slot = ⟨some call⟩ →
    c.log.starts.getLast? = some (call.owner.ticket, call.createdAt)
  settled : ∀ k s, (k, s) ∈ c.log.starts →
    (∃ u o, (k, u, o) ∈ c.log.settlements ∧ s ≤ u ∧ u ≤ s + c.session.config.callTimeout) ∨
      ∃ call, c.session.slot = ⟨some call⟩ ∧ call.owner.ticket = k ∧ call.createdAt = s
  timeouts : ∀ k u, (k, u, .error .timeout) ∈ c.log.settlements →
    ∃ s, (k, s) ∈ c.log.starts ∧ u = s + c.session.config.callTimeout
  accepted : ∀ k t, (k, t) ∈ c.log.acceptances → t ≤ c.now
  past : ∀ k u o, (k, u, o) ∈ c.log.settlements → u ≤ c.now

namespace Punctual

/-- The reasons to turn a send away have nothing to do with time. -/
theorem turnsAway_ne {s : Session} {m : Message} {v : Value} {f : CallFailure}
    (why : s.TurnsAway m v f) : f ≠ .timeout := by
  cases why <;> simp

/-- An answer never says that there was none in time. -/
theorem outcome_ne {f : Frame} {id : String} {raw : RawOutcome}
    (answers : f.answer? = some (id, raw)) (o : Owner) : o.outcome raw ≠ .error .timeout := by
  rcases Frame.outcome_cases answers o with ⟨v, same⟩ | ⟨fault, same⟩ | ⟨_, _, _, same⟩ <;>
    simp [same]

/-- Sends are accepted or turned away, and time passes. -/
theorem grow {d : Chronicle} (h : Punctual c) (accepted : List (ℕ × ℕ))
    (settled : List (ℕ × ℕ × Except CallFailure Value)) (starts : d.log.starts = c.log.starts)
    (slot : d.session.slot = c.session.slot) (config : d.session.config = c.session.config)
    (now : c.now ≤ d.now)
    (acceptances : d.log.acceptances = c.log.acceptances ++ accepted)
    (settlements : d.log.settlements = c.log.settlements ++ settled)
    (atOnce : ∀ x ∈ accepted, x.2 = c.now)
    (away : ∀ x ∈ settled, x.2.1 = c.now ∧ x.2.2 ≠ .error .timeout) : Punctual d := by
  constructor
  · rw [slot, starts]
    exact h.last
  · rw [slot, starts, settlements, config]
    intro k s hk
    rcases h.settled k s hk with ⟨u, o, hu, inTime⟩ | outstanding
    · exact .inl ⟨u, o, List.mem_append_left _ hu, inTime⟩
    · exact .inr outstanding
  · rw [settlements, starts, config]
    intro k u hu
    rcases List.mem_append.1 hu with hu | hu
    · exact h.timeouts k u hu
    · exact absurd rfl (away _ hu).2
  · rw [acceptances]
    intro k t ht
    rcases List.mem_append.1 ht with ht | ht
    · exact Nat.le_trans (h.accepted k t ht) now
    · have := atOnce _ ht
      dsimp only at this
      omega
  · rw [settlements]
    intro k u o hu
    rcases List.mem_append.1 hu with hu | hu
    · exact Nat.le_trans (h.past k u o hu) now
    · have := (away _ hu).1
      dsimp only at this
      omega

/-- The outstanding call is settled, and the slot is free. -/
theorem free {d : Chronicle} (h : Punctual c) (sound : Sound c none)
    (settled : List (ℕ × ℕ × Except CallFailure Value))
    (acceptances : d.log.acceptances = c.log.acceptances) (starts : d.log.starts = c.log.starts)
    (settlements : d.log.settlements = c.log.settlements ++ settled)
    (now : d.now = c.now) (config : d.session.config = c.session.config)
    (slot : d.session.slot = .empty)
    (outstanding : ∀ call, c.session.slot = ⟨some call⟩ →
      ∃ o, (call.owner.ticket, c.now, o) ∈ settled)
    (atOnce : ∀ x ∈ settled, x.2.1 = c.now)
    (timely : ∀ k u, (k, u, .error .timeout) ∈ settled → ∃ call, c.session.slot = ⟨some call⟩ ∧
      call.owner.ticket = k ∧ c.now = call.createdAt + c.session.config.callTimeout) :
    Punctual d := by
  constructor
  · intro call held
    rw [slot] at held
    cases held
  · rw [starts, settlements, config]
    intro k s hk
    left
    rcases h.settled k s hk with ⟨u, o, hu, inTime⟩ | ⟨call, held, rfl, rfl⟩
    · exact ⟨u, o, List.mem_append_left _ hu, inTime⟩
    -- it was outstanding up to now
    · obtain ⟨key, -, -, deadline, started, inTime⟩ := sound.held call held
      obtain ⟨o, ho⟩ := outstanding call held
      exact ⟨c.now, o, List.mem_append_right _ ho, started, by omega⟩
  · rw [settlements, starts, config]
    intro k u hu
    rcases List.mem_append.1 hu with hu | hu
    · exact h.timeouts k u hu
    · obtain ⟨call, held, rfl, last⟩ := timely k u hu
      have : u = c.now := atOnce _ hu
      exact ⟨call.createdAt, List.mem_of_getLast? (h.last call held), by omega⟩
  · rw [acceptances, now]
    exact h.accepted
  · rw [settlements, now]
    intro k u o hu
    rcases List.mem_append.1 hu with hu | hu
    · exact h.past k u o hu
    · exact Nat.le_of_eq (atOnce _ hu)

/-- A call starts: it is outstanding now or fails at once. -/
theorem start {d : Chronicle} (h : Punctual c) (empty : c.session.slot = .empty) (k : ℕ)
    (settled : List (ℕ × ℕ × Except CallFailure Value))
    (acceptances : d.log.acceptances = c.log.acceptances)
    (starts : d.log.starts = c.log.starts ++ [(k, c.now)])
    (settlements : d.log.settlements = c.log.settlements ++ settled)
    (now : d.now = c.now) (config : d.session.config = c.session.config)
    (failed : ∀ x ∈ settled, x.2.1 = c.now ∧ x.2.2 ≠ .error .timeout)
    (held : ∀ call, d.session.slot = ⟨some call⟩ → call.owner.ticket = k ∧ call.createdAt = c.now)
    (place : (∃ o, (k, c.now, o) ∈ settled) ∨ ∃ call, d.session.slot = ⟨some call⟩) :
    Punctual d := by
  constructor
  · intro call slot
    obtain ⟨ticket, created⟩ := held call slot
    rw [starts, ticket, created]
    exact List.getLast?_concat
  · rw [starts, settlements, config]
    intro j s hj
    rcases List.mem_append.1 hj with hj | hj
    · rcases h.settled j s hj with ⟨u, o, hu, inTime⟩ | ⟨call, slot, -⟩
      · exact .inl ⟨u, o, List.mem_append_left _ hu, inTime⟩
      · rw [empty] at slot
        cases slot
    · cases List.mem_singleton.1 hj
      rcases place with ⟨o, ho⟩ | ⟨call, slot⟩
      · exact .inl ⟨c.now, o, List.mem_append_right _ ho, Nat.le_refl _, Nat.le_add_right ..⟩
      · exact .inr ⟨call, slot, held call slot⟩
  · rw [settlements, starts, config]
    intro j u hu
    rcases List.mem_append.1 hu with hu | hu
    · obtain ⟨s, hs, last⟩ := h.timeouts j u hu
      exact ⟨s, List.mem_append_left _ hs, last⟩
    · exact absurd rfl (failed _ hu).2
  · rw [acceptances, now]
    exact h.accepted
  · rw [settlements, now]
    intro j u o hu
    rcases List.mem_append.1 hu with hu | hu
    · exact h.past j u o hu
    · exact Nat.le_of_eq (failed _ hu).1

theorem own (h : Punctual d.chronicle) (sound : Sound d.chronicle d.hand) (step : Own d e) :
    Punctual e.chronicle := by
  cases step with
  | @turnAway c m v f why =>
    have := turnsAway_ne why
    refine h.grow [] [(c.session.issued, c.now, .error f)] ?_ rfl rfl (Nat.le_refl _)
      ?_ ?_ ?_ ?_ <;>
      simp [Chronicle.log_becomes, this]
  | @enqueue c | @take c =>
    refine h.grow [(c.session.issued, c.now)] [] ?_ rfl rfl (Nat.le_refl _) ?_ ?_ ?_ ?_ <;>
      simp [Chronicle.log_becomes]
  | takeNext | stale | handedOn | beginClose | endClose =>
    refine h.grow [] [] ?_ rfl rfl (Nat.le_refl _) ?_ ?_ ?_ ?_ <;> simp [Chronicle.log_becomes]
  | @untimed c q loop =>
    have empty : c.session.slot = .empty := (sound.ready rfl).2
    refine h.start empty q.owner.ticket
      [(q.owner.ticket, c.now, .error (.transport noLoopMessage))] ?_ ?_ ?_ rfl rfl ?_ ?_ ?_
    all_goals simp [Chronicle.log_becomes, empty, PendingTable.empty]
  | @miss c q loop unlinked =>
    have empty : c.session.slot = .empty := (sound.ready rfl).2
    refine h.start empty q.owner.ticket
      [(q.owner.ticket, c.now, .error (.transport "outbound channel closed"))]
      ?_ ?_ ?_ rfl rfl ?_ ?_ ?_
    all_goals simp [Chronicle.log_becomes, PendingTable.empty]
  | @transmit c q loop linked =>
    refine h.start (sound.ready rfl).2 q.owner.ticket [] ?_ ?_ ?_ rfl rfl ?_ ?_ ?_
    all_goals simp [Chronicle.log_becomes, Turn.pending]
  | @answer c text f id raw call decodes answers slot same =>
    have := outcome_ne answers call.owner
    refine h.free sound [(call.owner.ticket, c.now, call.owner.outcome raw)] ?_ ?_ ?_ rfl rfl rfl
      ?_ ?_ ?_
    all_goals simp [Chronicle.log_becomes, slot, this.symm]
  | @lapse c timer call armed due slot same =>
    -- the timer that comes is the call's own, so this is the end of the time allowed
    obtain ⟨call', slot', -, -, deadline⟩ := sound.held_of_armed armed
    obtain ⟨key, -, -, allowed, -, inTime⟩ := sound.held call slot
    rw [slot] at slot'
    cases slot'
    have last : c.now = call.createdAt + c.session.config.callTimeout := by
      rw [← allowed]
      exact Nat.le_antisymm inTime (deadline ▸ due)
    refine h.free sound [(call.owner.ticket, c.now, .error .timeout)] ?_ ?_ ?_ rfl rfl rfl ?_ ?_ ?_
    all_goals simp [Chronicle.log_becomes, slot]
    exact last
  | @abandon c =>
    refine h.free sound
      ((c.session.outstanding ++ c.session.queued).map (·, c.now, .error .closing))
      ?_ ?_ ?_ rfl rfl rfl ?_ ?_ ?_
    · simp [Chronicle.log_becomes]
    · simp [Chronicle.log_becomes]
    · simp [Chronicle.log_becomes]
    · intro call slot
      refine ⟨.error .closing, List.mem_map.2 ⟨call.owner.ticket, ?_, rfl⟩⟩
      rw [Session.outstanding_of_slot slot]
      exact List.mem_append_left _ List.mem_cons_self
    · intro x hx
      obtain ⟨k, -, rfl⟩ := List.mem_map.1 hx
      rfl
    · intro k u hu
      obtain ⟨k', -, closing⟩ := List.mem_map.1 hu
      cases closing

/-- **Calls are settled in time.** -/
theorem of_reachable (h : d.Reachable) : Punctual d.chronicle := by
  induction h with
  | opened =>
    constructor <;>
      simp [Chronicle.opened, Chronicle.log, Turn.openSession, Turn.publish, Turn.emit,
        PendingTable.empty]
  | small reachable step ih =>
    cases step with
    | own step => exact ih.own (.of_reachable reachable) step
    | inbound step =>
      have := step.same
      refine ih.grow [] [] this.starts this.slot this.config (Nat.le_of_eq this.now.symm)
        ?_ ?_ ?_ ?_ <;> simp [this.acceptances, this.settlements]
    | unlink =>
      exact ih.grow [] [] rfl rfl rfl (Nat.le_refl _) (List.append_nil _).symm
        (List.append_nil _).symm (by simp) (by simp)
  | ambient _ step ih =>
    refine ih.grow [] [] (by rw [step.log]) (by rw [step.session]) (by rw [step.session])
      ?_ ?_ ?_ ?_ ?_
    · cases step with
      | share => exact Nat.le_refl _
      | wait ms => exact Nat.le_add_right _ _
    all_goals simp [step.log]

end Punctual

/-! ## Turns -/

/-- A call that starts at `s` as the `i`-th accepted one starts in turn: at once if it is the first,
else at the later of its acceptance and the settling of the accepted call before it. -/
def Log.InTurn (l : Log) (k s : ℕ) : ℕ → Prop
  | 0 => l.acceptances[0]? = some (k, s)
  | i + 1 => ∃ t j t' u o, l.acceptances[i + 1]? = some (k, t) ∧ l.acceptances[i]? = some (j, t') ∧
      (j, u, o) ∈ l.settlements ∧ s = max t u

/-- What comes later does not change who was in turn. -/
theorem Log.InTurn.mono {l l' : Log} {k s i : ℕ} (h : l.InTurn k s i) (grows : l <+: l') :
    l'.InTurn k s i := by
  have settlements : l.settlements <+: l'.settlements := grows.filterMap _
  obtain ⟨later, hl⟩ : l.acceptances <+: l'.acceptances := grows.filterMap _
  have kept : ∀ {i : ℕ} {x}, l.acceptances[i]? = some x → l'.acceptances[i]? = some x := by
    intro i x hx
    rw [← hl, List.getElem?_append_left (List.getElem?_eq_some_iff.1 hx).1]
    exact hx
  cases i with
  | zero => exact kept h
  | succ i =>
    obtain ⟨t, j, t', u, o, hk, hj, settled, later⟩ := h
    exact ⟨t, j, t', u, o, kept hk, kept hj, settlements.subset settled, later⟩

namespace Line

/-- The `i`-th started call is the `i`-th accepted one. -/
theorem accepted (h : Line d) {i k s : ℕ} (started : d.chronicle.log.starts[i]? = some (k, s)) :
    ∃ t, d.chronicle.log.acceptances[i]? = some (k, t) := by
  obtain ⟨rest, line⟩ := h.started
  have : (d.chronicle.log.acceptances.map Prod.fst)[i]? = some k := by
    have hi : i < (d.chronicle.log.starts.map Prod.fst).length := by
      simpa using (List.getElem?_eq_some_iff.1 started).1
    rw [← line, List.getElem?_append_left hi, List.getElem?_map, started]
    rfl
  rw [List.getElem?_map] at this
  obtain ⟨⟨k', t⟩, hk, rfl⟩ := Option.map_eq_some_iff.1 this
  exact ⟨t, hk⟩

/-- The accepted calls that have not been started are the queue. -/
theorem acceptances_queued (h : Line ⟨c, none⟩) (isOpen : c.session.phase = .opened) (i : ℕ) :
    (c.log.acceptances[c.log.starts.length + i]?).map Prod.fst = c.session.queued[i]? := by
  have line := h.opened isOpen
  rw [← List.getElem?_map, line]
  simp [List.getElem?_append_right]

end Line

/-- Every start is in turn, that of the call in hand would be, and a queue before a free slot has
its turn now. -/
structure Turns (d : Desk) : Prop where
  started : ∀ i k s, d.chronicle.log.starts[i]? = some (k, s) → d.chronicle.log.InTurn k s i
  hand : ∀ q, d.hand = some q →
    d.chronicle.log.InTurn q.owner.ticket d.chronicle.now d.chronicle.log.starts.length
  next : d.hand = none → d.chronicle.session.phase = .opened → d.chronicle.session.slot = .empty →
    d.chronicle.session.queue ≠ [] → ∃ k s o,
      d.chronicle.log.starts.getLast? = some (k, s) ∧
      (k, d.chronicle.now, o) ∈ d.chronicle.log.settlements

namespace Turns

/-- Nothing starts, and nothing is in hand. -/
theorem keep {d : Chronicle} {hand : Option QueuedCall} (h : Turns ⟨c, hand⟩)
    (grows : c.log <+: d.log) (starts : d.log.starts = c.log.starts)
    (next : d.session.phase = .opened → d.session.slot = .empty → d.session.queue ≠ [] →
      ∃ k s o, c.log.starts.getLast? = some (k, s) ∧ (k, d.now, o) ∈ d.log.settlements) :
    Turns ⟨d, none⟩ := by
  refine ⟨?_, by simp, ?_⟩
  · intro i k s hs
    rw [starts] at hs
    exact (h.started i k s hs).mono grows
  · intro _
    rw [starts]
    exact next

/-- Nothing starts, and those who wait are the same. -/
theorem same {d : Chronicle} (h : Turns ⟨c, none⟩) (grows : c.log <+: d.log)
    (starts : d.log.starts = c.log.starts) (phase : d.session.phase = c.session.phase)
    (slot : d.session.slot = c.session.slot) (queue : d.session.queue = c.session.queue)
    (now : d.now = c.now) : Turns ⟨d, none⟩ := by
  refine h.keep grows starts fun isOpen free queued => ?_
  rw [phase] at isOpen
  rw [slot] at free
  rw [queue] at queued
  obtain ⟨k, s, o, last, settled⟩ := h.next rfl isOpen free queued
  exact ⟨k, s, o, last, now ▸ (grows.filterMap _).subset settled⟩

/-- Nothing starts, but a call in turn is in hand now. -/
theorem takes {d : Chronicle} {q : QueuedCall} (h : Turns ⟨c, none⟩) (grows : c.log <+: d.log)
    (starts : d.log.starts = c.log.starts)
    (inTurn : d.log.InTurn q.owner.ticket d.now c.log.starts.length) : Turns ⟨d, some q⟩ := by
  refine ⟨?_, ?_, by simp⟩
  · intro i k s hs
    rw [starts] at hs
    exact (h.started i k s hs).mono grows
  · intro _ same
    cases same
    rw [starts]
    exact inTurn

/-- The call in hand starts in turn; if it fails at once, the next one is in turn now. -/
theorem start {d : Chronicle} {q : QueuedCall} (h : Turns ⟨c, some q⟩) (grows : c.log <+: d.log)
    (starts : d.log.starts = c.log.starts ++ [(q.owner.ticket, c.now)])
    (next : d.session.slot = .empty → ∃ o, (q.owner.ticket, d.now, o) ∈ d.log.settlements) :
    Turns ⟨d, none⟩ := by
  refine ⟨?_, by simp, ?_⟩
  · intro i k s hs
    rw [starts] at hs
    refine Log.InTurn.mono (l := c.log) ?_ grows
    by_cases hi : i < c.log.starts.length
    · rw [List.getElem?_append_left hi] at hs
      exact h.started i k s hs
    -- the call that has just started is the one that was in hand
    · have last : i = c.log.starts.length := by
        have := (List.getElem?_eq_some_iff.1 hs).1
        rw [List.length_append, List.length_singleton] at this
        omega
      subst last
      rw [List.getElem?_concat_length] at hs
      cases hs
      exact h.hand q rfl
  · intro _ _ free _
    obtain ⟨o, ho⟩ := next free
    exact ⟨q.owner.ticket, c.now, o, by rw [starts]; exact List.getLast?_concat, ho⟩

/-- A call that starts as soon as it is accepted is in turn: all others have been settled. -/
theorem inTurn_of_idle (line : Line ⟨c, none⟩) (punctual : Punctual c)
    (isOpen : c.session.phase = .opened) (idle : c.session.Idle) {l : Log} {k : ℕ}
    (acceptances : l.acceptances = c.log.acceptances ++ [(k, c.now)])
    (settlements : l.settlements = c.log.settlements) :
    l.InTurn k c.now c.log.starts.length := by
  -- nobody waits, so all accepted calls have been started
  have length : c.log.acceptances.length = c.log.starts.length := by
    have := congrArg List.length (line.opened isOpen)
    simpa [Session.queued, idle.1] using this
  have own : l.acceptances[c.log.starts.length]? = some (k, c.now) := by
    rw [acceptances, ← length]
    exact List.getElem?_concat_length
  cases count : c.log.starts.length with
  | zero =>
    rw [count] at own
    exact own
  | succ i =>
    have hi : i < c.log.starts.length := by omega
    -- the last one to start has left the slot, so it has been settled
    set x := c.log.starts[i] with hx
    have started : c.log.starts[i]? = some x := List.getElem?_eq_getElem hi
    obtain ⟨t, ht⟩ := line.accepted started
    rcases punctual.settled x.1 x.2 (List.mem_of_getElem? started) with
      ⟨u, o, hu, -⟩ | ⟨call, slot, -⟩
    · refine ⟨c.now, x.1, t, u, o, count ▸ own, ?_, settlements ▸ hu, ?_⟩
      · rw [acceptances, List.getElem?_append_left (by omega)]
        exact ht
      · have := punctual.past x.1 u o hu
        omega
    · rw [idle.2] at slot
      cases slot

/-- The first of the queue is in turn when the slot becomes free. -/
theorem inTurn_of_next (h : Turns ⟨c, none⟩) (line : Line ⟨c, none⟩) (punctual : Punctual c)
    (isOpen : c.session.phase = .opened) (free : c.session.slot = .empty) {q : QueuedCall}
    {rest : List QueuedCall} (queue : c.session.queue = q :: rest) :
    c.log.InTurn q.owner.ticket c.now c.log.starts.length := by
  obtain ⟨j, s, o, last, settled⟩ := h.next rfl isOpen free (by simp [queue])
  -- the first of the queue is the accepted call after the last one to start
  have first := line.acceptances_queued isOpen 0
  rw [Session.queued, queue] at first
  obtain ⟨⟨_, t⟩, hk, rfl⟩ := Option.map_eq_some_iff.1 first
  rw [List.getLast?_eq_getElem?] at last
  obtain ⟨t', ht'⟩ := line.accepted last
  cases count : c.log.starts.length with
  | zero => simp [List.length_eq_zero_iff.1 count] at last
  | succ i =>
    rw [count] at hk ht'
    have := punctual.accepted _ t (List.mem_of_getElem? hk)
    exact ⟨t, j, t', c.now, o, hk, ht', settled, by omega⟩

theorem own (h : Turns d) (sound : Sound d.chronicle d.hand) (line : Line d)
    (punctual : Punctual d.chronicle) (step : Own d e) : Turns e := by
  have grows := (Grows.own step).log
  cases step with
  | turnAway => exact h.same grows (by simp [Chronicle.log_becomes]) rfl rfl rfl rfl
  | enqueue fit isOpen taken room =>
    refine h.keep grows (by simp [Chronicle.log_becomes]) fun _ free _ => ?_
    -- somebody else was waiting, or the slot would not be free
    obtain ⟨k, s, o, last, settled⟩ := h.next rfl isOpen free fun empty => taken ⟨empty, free⟩
    exact ⟨k, s, o, last, (grows.filterMap _).subset settled⟩
  | take fit isOpen idle =>
    refine h.takes grows (by simp [Chronicle.log_becomes]) ?_
    refine inTurn_of_idle line punctual isOpen idle ?_ ?_ <;>
      simp [Chronicle.log_becomes, Session.nextCall]
  | takeNext isOpen free queue =>
    refine h.takes grows (by simp [Chronicle.log_becomes]) ?_
    exact (h.inTurn_of_next line punctual isOpen free queue).mono grows
  | untimed =>
    refine h.start grows ?_ fun _ => ⟨.error (.transport noLoopMessage), ?_⟩ <;>
      simp [Chronicle.log_becomes]
  | miss =>
    refine h.start grows ?_ fun _ => ⟨.error (.transport "outbound channel closed"), ?_⟩ <;>
      simp [Chronicle.log_becomes]
  | transmit =>
    refine h.start grows (by simp [Chronicle.log_becomes]) fun free => ?_
    cases free
  | @answer c text f id raw call decodes answers slot same =>
    refine h.keep grows ?_ fun _ _ _ =>
      ⟨_, _, call.owner.outcome raw, punctual.last call slot, ?_⟩ <;>
      simp [Chronicle.log_becomes]
  | @lapse c timer call armed due slot same =>
    refine h.keep grows ?_ fun _ _ _ => ⟨_, _, .error .timeout, punctual.last call slot, ?_⟩ <;>
      simp [Chronicle.log_becomes]
  | stale | handedOn => exact h.same grows (by simp [Chronicle.log_becomes]) rfl rfl rfl rfl
  | beginClose | endClose =>
    exact h.keep grows (by simp [Chronicle.log_becomes]) fun isOpen => by cases isOpen
  | abandon closing =>
    exact h.keep grows (by simp [Chronicle.log_becomes]) fun _ _ queued => absurd rfl queued

/-- **Every start is in turn.** -/
theorem of_reachable (h : d.Reachable) : Turns d := by
  induction h with
  | opened =>
    refine ⟨?_, by simp, fun _ _ _ queue => absurd rfl queue⟩
    intro i k s started
    cases started
  | small reachable step ih =>
    cases step with
    | own step =>
      exact ih.own (.of_reachable reachable) (.of_reachable reachable) (.of_reachable reachable)
        step
    | inbound step =>
      have := step.same
      exact ih.same (Grows.inbound step).log this.starts this.phase this.slot this.queue this.now
    | unlink => exact ih.same List.prefix_rfl rfl rfl rfl rfl rfl
  | @ambient c d reachable step ih =>
    refine ih.keep (Grows.ambient step).log (by rw [step.log]) ?_
    rw [step.log, step.session]
    intro isOpen free queue
    cases step with
    | share => exact ih.next rfl isOpen free queue
    | wait ms handedOn =>
      -- time does not pass while a queue waits before a free slot
      have := (Sound.of_reachable reachable).served isOpen free queue
      exact absurd handedOn (Nat.ne_of_gt this)

end Turns

/-! ## All runs -/

namespace Chronicle

/-- A call that has been accepted but not started waits for the accepted call before it; if that one
has been settled, it was settled this moment, and the slot is still to be handed on. -/
theorem waits (h : c.Reachable) (isOpen : c.session.phase = .opened) {i k t : ℕ}
    (accepted : c.log.acceptances[i]? = some (k, t)) (waiting : c.log.starts.length ≤ i) :
    ∃ i' j t', i = i' + 1 ∧ c.log.acceptances[i']? = some (j, t') ∧
      (j ∉ c.log.settled ∨ 0 < c.owed ∧ ∃ o, (j, c.now, o) ∈ c.log.settlements) := by
  have sound := Sound.of_reachable h.desk
  have line := Line.of_reachable h.desk
  have accounts := Accounts.of_reachable h.desk
  obtain ⟨n, rfl⟩ := Nat.exists_eq_add_of_le waiting
  have queued := line.acceptances_queued isOpen n
  rw [accepted] at queued
  have queue : c.session.queue ≠ [] := by
    intro empty
    simp [Session.queued, empty] at queued
  cases n with
  | succ n =>
    -- the call before it is queued, too
    have hn : n < c.session.queued.length := by
      have := (List.getElem?_eq_some_iff.1 queued.symm).1
      omega
    have before := line.acceptances_queued isOpen n
    rw [List.getElem?_eq_getElem hn] at before
    obtain ⟨⟨j, t'⟩, hj, same⟩ := Option.map_eq_some_iff.1 before
    refine ⟨c.log.starts.length + n, j, t', by omega, hj, .inl (accounts.not_settled (.inr ?_))⟩
    rw [show j = c.session.queued[n] from same]
    exact List.getElem_mem hn
  | zero =>
    -- the call before it was the last to start
    have last : ∃ j s, c.log.starts.getLast? = some (j, s) ∧
        (j ∉ c.log.settled ∨ 0 < c.owed ∧ ∃ o, (j, c.now, o) ∈ c.log.settlements) := by
      cases slot : c.session.slot.slot with
      | some call =>
        have held : c.session.slot = ⟨some call⟩ := by rw [← slot]
        refine ⟨_, _, (Punctual.of_reachable h.desk).last call held, .inl ?_⟩
        exact accounts.not_settled (.inl (by simp [Session.outstanding_of_slot held]))
      | none =>
        have free : c.session.slot = .empty := by rw [PendingTable.empty, ← slot]
        obtain ⟨j, s, o, last, settled⟩ := (Turns.of_reachable h.desk).next rfl isOpen free queue
        exact ⟨j, s, last, .inr ⟨sound.served isOpen free queue, o, settled⟩⟩
    obtain ⟨j, s, last, state⟩ := last
    rw [List.getLast?_eq_getElem?] at last
    obtain ⟨t', hj⟩ := line.accepted last
    have := (List.getElem?_eq_some_iff.1 last).1
    exact ⟨c.log.starts.length - 1, j, t', by omega, hj, state⟩

/-- **Calls start in order and on time.** Sends are accepted in the order of their tickets. The
started calls are the first of the accepted ones, in their order, and each started in turn; while
the session is open, a call waits only for an earlier one that has no outcome before this moment; a
started call has its outcome within the time allowed from its start; and a timeout comes at the end
of that time. -/
theorem Reachable.order (h : c.Reachable) :
    (c.log.acceptances.map Prod.fst).Pairwise (· < ·) ∧
    c.log.starts.map Prod.fst <+: c.log.acceptances.map Prod.fst ∧
    (∀ i k s, c.log.starts[i]? = some (k, s) → c.log.InTurn k s i) ∧
    (c.session.phase = .opened → ∀ i k t, c.log.acceptances[i]? = some (k, t) →
      c.log.starts.length ≤ i → ∃ i' j t', i = i' + 1 ∧ c.log.acceptances[i']? = some (j, t') ∧
        (j ∉ c.log.settled ∨ 0 < c.owed ∧ ∃ o, (j, c.now, o) ∈ c.log.settlements)) ∧
    (∀ k s, (k, s) ∈ c.log.starts → k ∉ c.log.settled →
      s ≤ c.now ∧ c.now ≤ s + c.session.config.callTimeout) ∧
    (∀ k s u o, (k, s) ∈ c.log.starts → (k, u, o) ∈ c.log.settlements →
      s ≤ u ∧ u ≤ s + c.session.config.callTimeout) ∧
    ∀ k u, (k, u, .error .timeout) ∈ c.log.settlements →
      ∃ s, (k, s) ∈ c.log.starts ∧ u = s + c.session.config.callTimeout := by
  have accounts := Accounts.of_reachable h.desk
  have punctual := Punctual.of_reachable h.desk
  refine ⟨(Numbered.of_reachable h.desk).ascending, (Line.of_reachable h.desk).started,
    (Turns.of_reachable h.desk).started, fun isOpen i k t => waits h isOpen, ?_, ?_,
    punctual.timeouts⟩
  · intro k s hk unsettled
    rcases punctual.settled k s hk with ⟨u, o, settled, -⟩ | ⟨call, slot, rfl, rfl⟩
    · exact absurd (Log.mem_settled settled) unsettled
    · obtain ⟨key, -, -, deadline, inTime⟩ := (Sound.of_reachable h.desk).held call slot
      rwa [deadline] at inTime
  · intro k s u o hk settled
    rcases punctual.settled k s hk with ⟨u', o', settled', inTime⟩ | ⟨call, slot, rfl, -⟩
    · cases accounts.outcome_unique settled settled' rfl
      exact inTime
    · refine absurd (Log.mem_settled settled) (accounts.not_settled (.inl ?_))
      simp [Session.outstanding_of_slot slot]

/-- The second call starts when the first times out, and has its own time for an answer. -/
theorem order_missed : missed.pump.log.starts = [(0, 0), (1, 10)] ∧
    missed.pump.log.InTurn 1 10 1 ∧ missed.pump.log.unanswered.length = 1 ∧
    missed.pump.now ≤ 10 + missed.session.config.callTimeout := by
  obtain ⟨-, -, inTurn, -, inTime, -⟩ := Reachable.order (Reachable.missed.step (.pump Nat.one_pos))
  exact ⟨rfl, inTurn 1 1 10 rfl, rfl, (inTime 1 10 (by decide +kernel) (by decide +kernel)).2⟩

end Chronicle

end ChargeLink

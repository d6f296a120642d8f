import ChargeLink.Proofs.Session.Timers
import Mathlib.Data.List.Count

/-!
# Every send has one outcome

A send is settled, outstanding, in hand or queued, and it is so once: `Accounts`
counts the places where a ticket can be. Closing settles what is outstanding or
queued, tells how many calls that were, and happens once.

* `Accounts.of_reachable`: every ticket that was given out is in one place.
* `Chronicle.Reachable.accounts`: the same for the calls of `send`, with the count of
  `close`.
-/

namespace ChargeLink

/-! ## Places of a ticket -/

/-- How often a ticket is settled, outstanding, in hand or queued. -/
def Desk.places (d : Desk) (k : ℕ) : ℕ :=
  d.chronicle.log.settled.count k + d.chronicle.session.outstanding.count k +
    (d.hand.toList.map (·.owner.ticket)).count k + d.chronicle.session.queued.count k

theorem Desk.places_becomes (c : Chronicle) (s : Session) (timers : Supervisor Expiry)
    (es : List Effect) (hand : Option QueuedCall) (k : ℕ) :
    Desk.places ⟨c.becomes s timers es, hand⟩ k =
      c.log.settled.count k + (Log.settled (es.map fun e => (c.now, e))).count k +
        s.outstanding.count k + (hand.toList.map (·.owner.ticket)).count k + s.queued.count k := by
  simp only [places, Chronicle.log_becomes, Log.view_append, List.count_append]
  rfl

@[simp] theorem Desk.places_ask (c : Chronicle) (m : Message) (v : Value)
    (hand : Option QueuedCall) (k : ℕ) :
    Desk.places ⟨c.ask m v, hand⟩ k = Desk.places ⟨c, hand⟩ k := rfl

@[simp] theorem Desk.places_hears (c : Chronicle) (text : String) (hand : Option QueuedCall)
    (k : ℕ) : Desk.places ⟨c.hears text, hand⟩ k = Desk.places ⟨c, hand⟩ k := rfl

@[simp] theorem Desk.places_owing (c : Chronicle) (n : ℕ) (hand : Option QueuedCall) (k : ℕ) :
    Desk.places ⟨c.owing n, hand⟩ k = Desk.places ⟨c, hand⟩ k := rfl

/-- Every ticket that was given out is in one place, and no other ticket is anywhere. -/
structure Accounts (d : Desk) : Prop where
  asked : d.chronicle.asked.length = d.chronicle.session.issued
  places : ∀ k, d.places k = if k < d.chronicle.session.issued then 1 else 0

namespace Accounts

variable {d e : Desk} {c : Chronicle}

/-- A new ticket is put in its place, and the others stay in theirs. -/
theorem issue (h : Accounts d) (asked : e.chronicle.asked.length = d.chronicle.asked.length + 1)
    (issued : e.chronicle.session.issued = d.chronicle.session.issued + 1)
    (places : ∀ k, e.places k = d.places k + [d.chronicle.session.issued].count k) :
    Accounts e := by
  refine ⟨by rw [asked, issued, h.asked], fun k => ?_⟩
  rw [places, h.places, issued, List.count_singleton]
  by_cases hk : d.chronicle.session.issued = k
  · subst hk
    simp
  · have : k < d.chronicle.session.issued + 1 ↔ k < d.chronicle.session.issued := by omega
    simp [this, hk]

/-- No ticket is given out, and each stays in its place or moves on to another. -/
theorem move (h : Accounts d) (asked : e.chronicle.asked.length = d.chronicle.asked.length)
    (issued : e.chronicle.session.issued = d.chronicle.session.issued)
    (places : ∀ k, e.places k = d.places k) : Accounts e :=
  ⟨by rw [asked, issued, h.asked], fun k => by rw [places, h.places, issued]⟩

theorem own (h : Accounts d) (sound : Sound d.chronicle d.hand) (step : Own d e) : Accounts e := by
  cases step with
  | @turnAway c m v f why =>
    refine h.issue (by simp [Chronicle.ask, Chronicle.becomes]) rfl fun k => ?_
    rw [Desk.places_ask, Desk.places_becomes, Desk.places]
    simp [Session.outstanding, Session.queued]
    omega
  | @enqueue c m v p fit isOpen taken room =>
    refine h.issue (by simp [Chronicle.ask, Chronicle.becomes]) rfl fun k => ?_
    rw [Desk.places_ask, Desk.places_becomes, Desk.places]
    simp [Session.outstanding, Session.queued, Session.nextCall]
    omega
  | @take c m v p fit isOpen idle =>
    refine h.issue (by simp [Chronicle.ask, Chronicle.becomes]) rfl fun k => ?_
    rw [Desk.places_ask, Desk.places_becomes, Desk.places]
    simp [Session.outstanding, Session.queued, Session.nextCall]
    omega
  | @takeNext c q rest isOpen free queue =>
    refine h.move rfl rfl fun k => ?_
    rw [Desk.places_becomes, Desk.places]
    simp [Session.outstanding, Session.queued, queue, List.count_cons]
    omega
  | @untimed c q loop =>
    refine h.move rfl rfl fun k => ?_
    rw [Desk.places_becomes, Desk.places]
    simp
    omega
  | @transmit c q loop linked =>
    have empty := Session.outstanding_of_empty (sound.ready rfl).2
    refine h.move rfl rfl fun k => ?_
    rw [Desk.places_becomes, Desk.places, empty]
    simp [Session.outstanding, Session.queued, Turn.pending]
  | @miss c q loop unlinked =>
    have empty := Session.outstanding_of_empty (sound.ready rfl).2
    refine h.move rfl rfl fun k => ?_
    rw [Desk.places_becomes, Desk.places, empty]
    simp [Session.outstanding, Session.queued, PendingTable.empty]
  | @answer c text f id raw call decodes answers slot same =>
    refine h.move rfl rfl fun k => ?_
    rw [Desk.places_owing, Desk.places_hears, Desk.places_becomes, Desk.places]
    simp [Session.outstanding, Session.queued, slot, PendingTable.empty]
  | @lapse c timer call armed due slot same =>
    refine h.move rfl rfl fun k => ?_
    rw [Desk.places_owing, Desk.places_becomes, Desk.places]
    simp [Session.outstanding, Session.queued, slot, PendingTable.empty]
  | stale => exact h.move rfl rfl fun k => by rw [Desk.places_becomes]; rfl
  | handedOn => exact h.move rfl rfl fun k => by simp
  | beginClose => exact h.move rfl rfl fun k => by rw [Desk.places_becomes]; rfl
  | @abandon c =>
    refine h.move rfl rfl fun k => ?_
    rw [Desk.places_becomes, Desk.places, Log.settled_abandonment]
    simp [Session.outstanding, Session.queued, PendingTable.empty]
    omega
  | endClose => exact h.move rfl rfl fun k => by rw [Desk.places_becomes]; simp; rfl

/-- What leaves the own calls alone keeps the accounts. -/
theorem same {d : Chronicle} (h : Accounts ⟨c, none⟩) (same : SameOwn c d) :
    Accounts ⟨d, none⟩ := by
  refine h.move (by rw [same.asked]) same.issued fun k => ?_
  simp only [Desk.places, Session.outstanding, Session.queued, same.settled, same.slot, same.queue]

/-- **Every ticket is in one place.** -/
theorem of_reachable (h : d.Reachable) : Accounts d := by
  induction h with
  | opened => exact ⟨rfl, fun k => by simp; rfl⟩
  | small reachable step ih =>
    cases step with
    | own step => exact ih.own (.of_reachable reachable) step
    | inbound step => exact ih.same step.same
    | unlink => exact ih.same (.unlink _)
  | ambient _ step ih =>
    refine ih.move (by rw [step.asked]) (by rw [step.session]) fun k => ?_
    simp only [Desk.places, step.log, step.session]

end Accounts

variable {c : Chronicle} {d : Desk}

/-- A call that is outstanding or queued has no outcome yet. -/
theorem Accounts.not_settled (h : Accounts ⟨c, none⟩) {k : ℕ}
    (waiting : k ∈ c.session.outstanding ∨ k ∈ c.session.queued) : k ∉ c.log.settled := by
  intro settled
  have places := h.places k
  have := List.count_pos_iff.2 settled
  simp only [Desk.places] at places
  rcases waiting with waiting | waiting
  all_goals
    have := List.count_pos_iff.2 waiting
    split at places <;> omega

/-- A ticket that has not been given out is not settled. -/
theorem Accounts.settled_lt (h : Accounts d) {k : ℕ} (settled : k ∈ d.chronicle.log.settled) :
    k < d.chronicle.session.issued := by
  have places := h.places k
  have := List.count_pos_iff.2 settled
  simp only [Desk.places] at places
  split at places
  · assumption
  · omega

/-- Without outstanding and queued calls, every ticket is settled. -/
theorem Accounts.settled_of_lt (h : Accounts ⟨c, none⟩) (slot : c.session.slot = .empty)
    (queue : c.session.queue = []) {k : ℕ} (lt : k < c.session.issued) : k ∈ c.log.settled := by
  have places := h.places k
  rw [if_pos lt] at places
  simp only [Desk.places, Session.outstanding_of_empty slot, Session.queued, queue,
    Option.toList_none, List.map_nil, List.count_nil, Nat.add_zero] at places
  rw [← List.count_pos_iff]
  omega

/-- No call has two outcomes. -/
theorem Accounts.outcome_unique (h : Accounts d) {x y : ℕ × ℕ × Except CallFailure Value}
    (hx : x ∈ d.chronicle.log.settlements) (hy : y ∈ d.chronicle.log.settlements)
    (same : x.1 = y.1) : x = y := by
  -- no ticket is settled twice
  have nodup : (d.chronicle.log.settlements.map Prod.fst).Nodup := by
    rw [Log.map_settlements, List.nodup_iff_count_le_one]
    intro k
    have := h.places k
    simp only [Desk.places] at this
    split at this <;> omega
  exact List.inj_on_of_nodup_map nodup hx hy same

/-! ## The outstanding call -/

/-- What more is transmitted or settled changes what is unanswered. -/
theorem Log.unanswered_grow {l l' : Log} (cs : List (ℕ × String)) (ks : List ℕ)
    (calls : l'.calls = l.calls ++ cs) (settled : l'.settled = l.settled ++ ks) :
    l'.unanswered = (l.unanswered.filter fun x => x.1 ∉ ks) ++
      cs.filter fun x => x.1 ∉ l.settled ++ ks := by
  rw [unanswered, calls, settled, List.filter_append, unanswered, List.filter_filter]
  congr 1
  refine List.filter_congr fun x _ => ?_
  simp [and_comm]

/-- The outstanding call is the one that was transmitted and has no outcome. -/
def Session.held (s : Session) : List (ℕ × String) :=
  s.slot.slot.toList.map fun call => (call.owner.ticket, call.id)

/-- Settling others leaves the outstanding call outstanding. -/
theorem unanswered_keep {c d : Chronicle} (ks : List ℕ) (h : c.log.unanswered = c.session.held)
    (calls : d.log.calls = c.log.calls) (settled : d.log.settled = c.log.settled ++ ks)
    (slot : d.session.slot = c.session.slot) (others : ∀ k ∈ ks, k ∉ c.session.outstanding) :
    d.log.unanswered = d.session.held := by
  rw [Log.unanswered_grow [] ks (by rw [calls, List.append_nil]) settled, List.filter_nil,
    List.append_nil, h, Session.held, Session.held, slot, List.filter_eq_self]
  intro x hx
  obtain ⟨call, hc, rfl⟩ := List.mem_map.1 hx
  have : call.owner.ticket ∈ c.session.outstanding := List.mem_map.2 ⟨call, hc, rfl⟩
  simpa using fun hk => others _ hk this

/-- Once the outstanding call is settled, none is. -/
theorem unanswered_free {c d : Chronicle} (ks : List ℕ) (h : c.log.unanswered = c.session.held)
    (calls : d.log.calls = c.log.calls) (settled : d.log.settled = c.log.settled ++ ks)
    (slot : d.session.slot = .empty) (own : ∀ k ∈ c.session.outstanding, k ∈ ks) :
    d.log.unanswered = d.session.held := by
  rw [Log.unanswered_grow [] ks (by rw [calls, List.append_nil]) settled, List.filter_nil,
    List.append_nil, h, Session.held, Session.held, slot]
  refine List.filter_eq_nil_iff.2 ?_
  intro x hx
  obtain ⟨call, hc, rfl⟩ := List.mem_map.1 hx
  simpa using own _ (List.mem_map.2 ⟨call, hc, rfl⟩)

namespace Accounts

/-- A ticket in hand is nowhere else. -/
theorem hand_apart {q : QueuedCall} (h : Accounts ⟨c, some q⟩) :
    q.owner.ticket ∉ c.log.settled ∧ q.owner.ticket ∉ c.session.outstanding := by
  have places := h.places q.owner.ticket
  simp only [Desk.places, Option.toList_some, List.map_cons, List.map_nil,
    List.count_singleton_self] at places
  constructor <;> intro mem
  all_goals
    have := List.count_pos_iff.2 mem
    split at places <;> omega

/-- The next ticket is nowhere yet. -/
theorem issued_apart (h : Accounts ⟨c, none⟩) : c.session.issued ∉ c.session.outstanding := by
  have places := h.places c.session.issued
  simp only [Desk.places] at places
  intro mem
  have := List.count_pos_iff.2 mem
  rw [if_neg (Nat.lt_irrefl _)] at places
  omega

theorem unanswered_own (h : d.chronicle.log.unanswered = d.chronicle.session.held)
    (sound : Sound d.chronicle d.hand) (accounts : Accounts d) (step : Own d e) :
    e.chronicle.log.unanswered = e.chronicle.session.held := by
  cases step with
  | @turnAway c m v f why =>
    refine unanswered_keep [c.session.issued] h ?_ ?_ rfl ?_
    · simp [Chronicle.log_becomes]
    · simp [Chronicle.log_becomes]
    · simpa using accounts.issued_apart
  | enqueue | take | takeNext | stale | handedOn | beginClose | endClose =>
    refine unanswered_keep [] h ?_ ?_ rfl ?_ <;> simp [Chronicle.log_becomes]
  | @untimed c q loop =>
    refine unanswered_keep [q.owner.ticket] h ?_ ?_ rfl ?_
    · simp [Chronicle.log_becomes]
    · simp [Chronicle.log_becomes]
    · simpa using accounts.hand_apart.2
  | @miss c q loop unlinked =>
    refine unanswered_keep [q.owner.ticket] h ?_ ?_ (sound.ready rfl).2.symm ?_
    · simp [Chronicle.log_becomes]
    · simp [Chronicle.log_becomes]
    · simpa using accounts.hand_apart.2
  | @transmit c q loop linked =>
    have empty : c.log.unanswered = [] := by
      rw [h, Session.held, (sound.ready rfl).2]
      rfl
    rw [Log.unanswered_grow (l := c.log) [(q.owner.ticket, c.session.nextId)] [], empty]
    · simp [Session.held, Turn.pending, accounts.hand_apart.1]
    · simp [Chronicle.log_becomes]
    · simp [Chronicle.log_becomes]
  | @answer c text f id raw call decodes answers slot same =>
    refine unanswered_free [call.owner.ticket] h ?_ ?_ rfl ?_
    · simp [Chronicle.log_becomes]
    · simp [Chronicle.log_becomes]
    · simp [Session.outstanding_of_slot slot]
  | @lapse c timer call armed due slot same =>
    refine unanswered_free [call.owner.ticket] h ?_ ?_ rfl ?_
    · simp [Chronicle.log_becomes]
    · simp [Chronicle.log_becomes]
    · simp [Session.outstanding_of_slot slot]
  | @abandon c =>
    refine unanswered_free (c.session.outstanding ++ c.session.queued) h ?_ ?_ rfl ?_
    · simp [Chronicle.log_becomes]
    · simp [Chronicle.log_becomes]
    · exact fun k hk => List.mem_append_left _ hk

/-- **The outstanding call is the only one that was transmitted and has no outcome.** -/
theorem unanswered (h : d.Reachable) : d.chronicle.log.unanswered = d.chronicle.session.held := by
  induction h with
  | opened => rfl
  | small reachable step ih =>
    cases step with
    | own step => exact unanswered_own ih (.of_reachable reachable) (.of_reachable reachable) step
    | inbound step =>
      have := step.same
      refine unanswered_keep [] ih this.calls ?_ this.slot (by simp)
      rw [this.settled, List.append_nil]
    | unlink => exact ih
  | ambient _ step ih =>
    rw [step.log, step.session]
    exact ih

/-- A call in hand has not been transmitted. -/
theorem hand_untransmitted {q : QueuedCall} (h : Desk.Reachable ⟨c, some q⟩) :
    q.owner.ticket ∉ c.log.calls.map Prod.fst := by
  -- it has no outcome; had it been transmitted, it would hold the slot
  intro mem
  obtain ⟨x, hx, same⟩ := List.mem_map.1 mem
  have waits : x ∈ c.log.unanswered := by
    refine List.mem_filter.2 ⟨hx, ?_⟩
    rw [same]
    simpa using (hand_apart (.of_reachable h)).1
  have held : c.log.unanswered = c.session.held := unanswered h
  rw [held, Session.held, ((Sound.of_reachable h).ready rfl).2] at waits
  cases waits

/-- A ticket that has not been given out is not transmitted. -/
theorem transmitted_lt (h : d.Reachable) {k : ℕ} {id : String}
    (called : (k, id) ∈ d.chronicle.log.calls) : k < d.chronicle.session.issued := by
  have accounts : Accounts d := .of_reachable h
  by_cases settled : k ∈ d.chronicle.log.settled
  · exact accounts.settled_lt settled
  -- a call without an outcome is outstanding
  have waits : (k, id) ∈ d.chronicle.session.held := by
    rw [← unanswered h]
    exact List.mem_filter.2 ⟨called, by simpa using settled⟩
  obtain ⟨call, hc, same⟩ := List.mem_map.1 waits
  have outstanding : k ∈ d.chronicle.session.outstanding :=
    List.mem_map.2 ⟨call, hc, congrArg Prod.fst same⟩
  have places := accounts.places k
  have := List.count_pos_iff.2 outstanding
  simp only [Desk.places] at places
  split at places
  · assumption
  · omega

/-- **No ticket is transmitted twice.** -/
theorem calls_nodup (h : d.Reachable) : (d.chronicle.log.calls.map Prod.fst).Nodup := by
  induction h with
  | opened => exact .nil
  | small reachable step ih =>
    cases step with
    | own step =>
      cases step with
      | @transmit c q loop linked =>
        simp only [Chronicle.log_becomes, Log.view_append, List.map_append, List.nodup_append]
        refine ⟨ih, List.nodup_singleton _, fun a ha b hb => ?_⟩
        rw [List.mem_singleton.1 hb]
        intro (same : a = q.owner.ticket)
        exact hand_untransmitted reachable (same ▸ ha)
      | _ => simpa [Chronicle.log_becomes] using ih
    | inbound step =>
      rw [step.same.calls]
      exact ih
    | unlink => exact ih
  | ambient _ step ih =>
    rw [step.log]
    exact ih

end Accounts

/-! ## Closing -/

namespace Chronicle

variable {c d : Chronicle}

/-- A session that is not open any more is never open again. -/
theorem smalls_ended {d e : Desk} (h : Smalls d e) (ended : d.chronicle.session.phase ≠ .opened) :
    e.chronicle.session.phase ≠ .opened := by
  induction h with
  | refl => exact ended
  | tail _ step ih =>
    cases step with
    | own step => cases step <;> first | exact ih | simp
    | inbound step => rwa [step.same.phase]
    | unlink => exact ih

/-- Nor does it count anew what it let fail. -/
theorem smalls_abandoned {d e : Desk} {n : ℕ} (h : Smalls d e)
    (ended : d.chronicle.session.phase ≠ .opened)
    (done : d.chronicle.session.abandoned = some n) :
    e.chronicle.session.phase ≠ .opened ∧ e.chronicle.session.abandoned = some n := by
  refine ⟨smalls_ended h ended, ?_⟩
  induction h with
  | refl => exact done
  | tail before step ih =>
    cases step with
    | own step =>
      cases step with
      | beginClose isOpen => exact absurd isOpen (smalls_ended before ended)
      | abandon closing first =>
        rw [ih] at first
        cases first
      | _ => exact ih
    | inbound step => rwa [step.same.abandoned]
    | unlink => exact ih

theorem Steps.ended (h : Steps c d) (ended : c.session.phase ≠ .opened) :
    d.session.phase ≠ .opened := by
  induction h with
  | refl => exact ended
  | tail _ step ih =>
    rcases step.small with h | h
    · exact smalls_ended h ih
    · rwa [h.session]

theorem close_ended (c : Chronicle) : c.close.session.phase ≠ .opened := by
  by_cases isOpen : c.session.phase = .opened
  · simp [close, Turn.close_of_open isOpen]
  · simpa [close, Turn.close_of_not_open isOpen] using isOpen

/-- Closing an open session settles what is outstanding or queued, and says how much that is. -/
theorem log_close (isOpen : c.session.phase = .opened) :
    c.close.log.settlements = c.log.settlements ++
      (c.session.outstanding ++ c.session.queued).map (·, c.now, .error .closing) ∧
    c.close.log.events = c.log.events ++ [c.session.event (.closed c.turn.close.1)] ∧
    c.turn.close.1 = (c.session.outstanding ++ c.session.queued).length := by
  have log : c.close.log = c.log ++ (c.session.abandonment ++
      [Effect.published (c.session.event (.closed c.session.waiting.length))]).map
        fun e => (c.now, e) := by
    rw [close, Turn.close_of_open isOpen, List.append_assoc]
    exact log_becomes ..
  have count : c.turn.close.1 = c.session.waiting.length := by rw [Turn.close_of_open isOpen]
  refine ⟨?_, ?_, ?_⟩
  · simp [log]
  · simp [log, count]
  · rw [count, ← Session.tickets_waiting, List.length_map]

/-- A closing session lets what is outstanding or queued fail, and counts it. -/
theorem log_abandon (closing : c.session.phase = .closing) (first : c.session.abandoned = none) :
    (c.closing .abandon).log.settlements = c.log.settlements ++
      (c.session.outstanding ++ c.session.queued).map (·, c.now, .error .closing) ∧
    (c.closing .abandon).session.abandoned =
      some (c.session.outstanding ++ c.session.queued).length := by
  rw [closing_abandon closing first]
  refine ⟨by simp [log_becomes], ?_⟩
  rw [← Session.tickets_waiting, List.length_map]
  rfl

/-- Its event carries what was counted, and settles nothing more. -/
theorem log_endClose {n : ℕ} (closing : c.session.phase = .closing)
    (done : c.session.abandoned = some n) :
    (c.closing .finish).log.settlements = c.log.settlements ∧
    (c.closing .finish).log.events = c.log.events ++ [c.session.event (.closed n)] := by
  rw [closing_finish closing done]
  simp [log_becomes]

/-- What was counted as the calls failed is the last word on it. -/
theorem Steps.abandoned {n : ℕ} (h : Steps c d) (ended : c.session.phase ≠ .opened)
    (done : c.session.abandoned = some n) : d.session.abandoned = some n := by
  induction h with
  | refl => exact done
  | tail before step ih =>
    have ended := Steps.ended before ended
    rcases step.small with small | ambient
    · exact (smalls_abandoned small ended ih).2
    · rwa [ambient.session]

/-- **Every send is settled, outstanding or queued, and it is so once**: of the three counts one is
1 and the others are 0. Closing says how many calls it settles, and is done once, also when other
things happen between the steps that it takes. -/
theorem Reachable.accounts (h : c.Reachable) :
    (∀ m v, (c.turn.send m v).1 = c.asked.length) ∧
    (∀ k < c.asked.length, c.log.settled.count k + c.session.outstanding.count k +
      c.session.queued.count k = 1) ∧
    c.asked.length =
      c.log.settled.length + c.session.outstanding.length + c.session.queued.length ∧
    (c.session.phase = .opened →
      c.close.log.settlements = c.log.settlements ++
        (c.session.outstanding ++ c.session.queued).map (·, c.now, .error .closing) ∧
      c.close.log.events = c.log.events ++ [c.session.event (.closed c.turn.close.1)] ∧
      c.turn.close.1 = (c.session.outstanding ++ c.session.queued).length) ∧
    (c.session.phase = .closing → c.session.abandoned = none →
      (c.closing .abandon).log.settlements = c.log.settlements ++
        (c.session.outstanding ++ c.session.queued).map (·, c.now, .error .closing) ∧
      (c.closing .abandon).session.abandoned =
        some (c.session.outstanding ++ c.session.queued).length) ∧
    (∀ n, c.session.phase = .closing → c.session.abandoned = some n →
      (c.closing .finish).log.settlements = c.log.settlements ∧
      (c.closing .finish).log.events = c.log.events ++ [c.session.event (.closed n)] ∧
      ∀ d, Steps c d → d.session.abandoned = some n) ∧
    (c.session.phase ≠ .opened → c.turn.close = (0, c.turn)) ∧
    ∀ d, Steps c.close d → d.turn.close = (0, d.turn) := by
  obtain ⟨asked, places⟩ := Accounts.of_reachable h.desk
  have once : ∀ k, c.log.settled.count k + c.session.outstanding.count k +
      c.session.queued.count k = if k < c.asked.length then 1 else 0 := by
    intro k
    rw [asked, ← places k]
    rfl
  refine ⟨fun _ _ => asked.symm, fun k hk => by rw [once, if_pos hk], ?_, log_close, log_abandon,
    ?_, Turn.close_of_not_open, fun d later => Turn.close_of_not_open (later.ended c.close_ended)⟩
  -- with each ticket once, the three lists hold the tickets up to `asked.length`
  · have perm : (c.log.settled ++ c.session.outstanding ++ c.session.queued).Perm
        (List.range c.asked.length) := by
      rw [List.perm_iff_count]
      intro k
      rw [List.count_append, List.count_append, once, List.count_range]
    simpa [Nat.add_assoc] using perm.length_eq.symm
  · intro n closing done
    obtain ⟨settlements, events⟩ := log_endClose closing done
    exact ⟨settlements, events, fun d later => later.abandoned (by rw [closing]; decide) done⟩

/-- One call has timed out, the other still waits, and closing lets it fail. -/
theorem accounts_missed : missed.log.settled = [0] ∧ missed.session.queued = [1] ∧
    missed.log.settled.count 1 + missed.session.outstanding.count 1 +
      missed.session.queued.count 1 = 1 ∧
    missed.close.log.settlements = missed.log.settlements ++ [(1, 10, .error .closing)] ∧
    missed.close.turn.close = (0, missed.close.turn) := by
  obtain ⟨-, once, -, closing, -, -, -, again⟩ := Reachable.accounts Reachable.missed
  exact ⟨rfl, rfl, once 1 (by decide), (closing rfl).1, again _ .refl⟩

end Chronicle

end ChargeLink

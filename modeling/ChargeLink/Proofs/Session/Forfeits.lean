import ChargeLink.Proofs.Session.Callers
import ChargeLink.Proofs.Session.Order

/-!
# What closing costs

Closing a session lets the accepted calls fail that have no outcome yet, and
counts them. No other accepted call fails because the session closes: a send that
comes too late is not accepted.

* `Log.forfeited`: the accepted calls that have failed because the session closed.
* `Forfeits.of_reachable`, `Station.Follows.forfeited`: closing counts them all.
-/

namespace ChargeLink

namespace Log

/-- The send of an outcome, if it has failed because the session closed or was closed already. -/
def dropped? : ℕ × ℕ × Except CallFailure Value → Option ℕ
  | (k, _, .error .closing) => some k
  | _ => none

/-- The accepted calls that have failed because the session closed. -/
def forfeited (l : Log) : List ℕ :=
  (l.settlements.filterMap dropped?).filter fun k => k ∈ l.acceptances.map Prod.fst

theorem dropped?_eq_some_iff {k j time : ℕ} {o : Except CallFailure Value} :
    dropped? (j, time, o) = some k ↔ j = k ∧ o = .error .closing := by
  unfold dropped?
  split <;> simp_all

theorem settled_of_dropped {l : Log} {k : ℕ} (h : k ∈ l.settlements.filterMap dropped?) :
    k ∈ l.settled := by
  obtain ⟨⟨j, time, o⟩, mem, told⟩ := List.mem_filterMap.1 h
  obtain ⟨rfl, -⟩ := dropped?_eq_some_iff.1 told
  exact mem_settled mem

end Log

/-- The tickets of all calls that wait, one in hand among them. -/
def Desk.waiting (d : Desk) : List ℕ :=
  d.hand.toList.map (·.owner.ticket) ++ d.chronicle.session.outstanding ++
    d.chronicle.session.queued

/-- Whoever waits has been accepted; and whoever was accepted and has failed because the session
closed was counted. -/
structure Forfeits (d : Desk) : Prop where
  accepted : ∀ k ∈ d.waiting, k ∈ d.chronicle.log.acceptances.map Prod.fst
  unclosed : d.chronicle.session.phase = .opened → d.chronicle.session.abandoned = none
  count : d.chronicle.log.forfeited.length = d.chronicle.session.abandoned.getD 0

namespace Forfeits

variable {d e : Desk} {c : Chronicle}

/-- Nobody is accepted, and the new outcomes are for another reason or of sends that were not
accepted. -/
theorem keep (h : Forfeits d)
    (acceptances : e.chronicle.log.acceptances = d.chronicle.log.acceptances)
    (os : List (ℕ × ℕ × Except CallFailure Value))
    (settlements : e.chronicle.log.settlements = d.chronicle.log.settlements ++ os)
    (others : ∀ k time, (k, time, .error .closing) ∈ os →
      k ∉ d.chronicle.log.acceptances.map Prod.fst)
    (abandoned : e.chronicle.session.abandoned = d.chronicle.session.abandoned)
    (phase : e.chronicle.session.phase = .opened → d.chronicle.session.phase = .opened)
    (waiting : e.waiting ⊆ d.waiting) : Forfeits e := by
  have none : (os.filterMap Log.dropped?).filter
      (fun k => k ∈ d.chronicle.log.acceptances.map Prod.fst) = [] := by
    rw [List.filter_eq_nil_iff]
    intro k hk accepted
    obtain ⟨⟨j, time, o⟩, mem, told⟩ := List.mem_filterMap.1 hk
    obtain ⟨rfl, rfl⟩ := Log.dropped?_eq_some_iff.1 told
    exact others _ _ mem (of_decide_eq_true accepted)
  refine ⟨fun k hk => ?_, fun isOpen => ?_, ?_⟩
  · rw [acceptances]
    exact h.accepted k (waiting hk)
  · rw [abandoned]
    exact h.unclosed (phase isOpen)
  · rw [Log.forfeited, settlements, acceptances, List.filterMap_append, List.filter_append, none,
      List.append_nil, abandoned]
    exact h.count

/-- So it is if nothing but that is brought about. -/
theorem quiet {es : List Effect} (h : Forfeits d)
    (log : e.chronicle.log = d.chronicle.log ++ es.map fun x => (d.chronicle.now, x))
    (nobody : ∀ k, .accepted k ∉ es)
    (others : ∀ k, .settled k (.error .closing) ∈ es →
      k ∉ d.chronicle.log.acceptances.map Prod.fst)
    (abandoned : e.chronicle.session.abandoned = d.chronicle.session.abandoned)
    (phase : e.chronicle.session.phase = .opened → d.chronicle.session.phase = .opened)
    (waiting : e.waiting ⊆ d.waiting) : Forfeits e := by
  have none : Log.acceptances (es.map fun x => (d.chronicle.now, x)) = [] := by
    refine List.filterMap_eq_nil_iff.2 fun x hx => ?_
    obtain ⟨y, hy, rfl⟩ := List.mem_map.1 hx
    cases y with
    | accepted k => exact absurd hy (nobody k)
    | _ => rfl
  refine h.keep (by simp [log, none]) (Log.settlements (es.map fun x => (d.chronicle.now, x)))
    (by simp [log]) (fun k time settled => ?_) abandoned phase waiting
  obtain ⟨x, hx, told⟩ := List.mem_filterMap.1 settled
  obtain ⟨y, hy, rfl⟩ := List.mem_map.1 hx
  cases y with
  | settled =>
    cases told
    exact others k hy
  | _ => cases told

/-- With nothing in hand, who waits has waited before if that is so of the outstanding call. -/
theorem waiting_subset (free : e.hand = none)
    (slot : e.chronicle.session.outstanding ⊆
      d.hand.toList.map (·.owner.ticket) ++ d.chronicle.session.outstanding)
    (queue : e.chronicle.session.queue = d.chronicle.session.queue) : e.waiting ⊆ d.waiting := by
  intro k hk
  rcases List.mem_append.1 hk with hk | hk
  · rw [free] at hk
    exact List.mem_append_left _ (slot hk)
  · rw [Session.queued, queue] at hk
    exact List.mem_append_right _ hk

/-- A send is accepted. -/
theorem accept (h : Forfeits d) (accounts : Accounts d)
    (acceptances : e.chronicle.log.acceptances =
      d.chronicle.log.acceptances ++ [(d.chronicle.session.issued, d.chronicle.now)])
    (settlements : e.chronicle.log.settlements = d.chronicle.log.settlements)
    (abandoned : e.chronicle.session.abandoned = d.chronicle.session.abandoned)
    (phase : e.chronicle.session.phase = d.chronicle.session.phase)
    (waiting : ∀ k ∈ e.waiting, k = d.chronicle.session.issued ∨ k ∈ d.waiting) :
    Forfeits e := by
  have tickets : e.chronicle.log.acceptances.map Prod.fst =
      d.chronicle.log.acceptances.map Prod.fst ++ [d.chronicle.session.issued] := by
    rw [acceptances, List.map_append]
    rfl
  -- the new ticket has no outcome yet
  have same : e.chronicle.log.forfeited = d.chronicle.log.forfeited := by
    rw [Log.forfeited, Log.forfeited, tickets, settlements]
    refine List.filter_congr fun k hk => ?_
    have lt := accounts.settled_lt (Log.settled_of_dropped hk)
    simp [Nat.ne_of_lt lt]
  refine ⟨fun k hk => ?_, ?_, ?_⟩
  · rw [tickets]
    rcases waiting k hk with rfl | old
    · exact List.mem_append_right _ List.mem_cons_self
    · exact List.mem_append_left _ (h.accepted k old)
  · rw [phase, abandoned]
    exact h.unclosed
  · rw [same, abandoned]
    exact h.count

/-- The calls that wait fail, and are counted. -/
theorem abandon (h : Forfeits ⟨c, none⟩) (first : c.session.abandoned = none)
    (closing : c.session.phase = .closing) : Forfeits ⟨c.becomes
      { c.session with
        slot := .empty
        queue := []
        abandoned := some c.session.waiting.length }
      (c.session.slot.slot.elim c.timers c.timers.release) c.session.abandonment, none⟩ := by
  set e := c.becomes
    { c.session with slot := .empty, queue := [], abandoned := some c.session.waiting.length }
    (c.session.slot.slot.elim c.timers c.timers.release) c.session.abandonment
  have acceptances : e.log.acceptances = c.log.acceptances := by simp [e, Chronicle.log_becomes]
  have settlements : e.log.settlements = c.log.settlements ++
      (c.session.outstanding ++ c.session.queued).map (·, c.now, .error .closing) := by
    simp [e, Chronicle.log_becomes]
  have dropped : ((c.session.outstanding ++ c.session.queued).map
      fun k => (k, c.now, .error .closing)).filterMap Log.dropped? =
        c.session.outstanding ++ c.session.queued := by
    rw [List.filterMap_map]
    exact List.filterMap_some
  refine ⟨nofun, fun isOpen => ?_, ?_⟩
  · have isOpen : c.session.phase = .opened := isOpen
    rw [closing] at isOpen
    cases isOpen
  · -- all who wait have been accepted, and none was counted before
    have before : c.log.forfeited.length = 0 := h.count.trans (by rw [first]; rfl)
    have all : (c.session.outstanding ++ c.session.queued).filter
        (fun k => k ∈ c.log.acceptances.map Prod.fst) = c.session.outstanding ++ c.session.queued :=
      List.filter_eq_self.2 fun k hk => by simpa using h.accepted k hk
    show e.log.forfeited.length = c.session.waiting.length
    rw [Log.forfeited, settlements, acceptances, List.filterMap_append, dropped, List.filter_append,
      all, List.length_append, ← Session.tickets_waiting, List.length_map]
    exact (congrArg (· + _) before).trans (Nat.zero_add _)

theorem own (h : Forfeits d) (accounts : Accounts d) (numbered : Numbered d.chronicle)
    (step : Own d e) : Forfeits e := by
  cases step with
  | turnAway =>
    refine h.quiet ((Chronicle.log_ask ..).trans (Chronicle.log_becomes ..)) (by simp)
      (fun k settled accepted => ?_) rfl id fun _ hk => hk
    -- what is turned away has not been accepted
    cases List.mem_singleton.1 settled
    exact Nat.lt_irrefl _ (numbered.issued _ accepted)
  | enqueue | take =>
    refine h.accept accounts ?_ ?_ rfl rfl fun k hk => ?_
    · simp [Chronicle.log_becomes]
    · simp [Chronicle.log_becomes]
    · simp [Desk.waiting, Session.outstanding, Session.queued, Session.nextCall] at hk ⊢
      grind
  | takeNext isOpen free queue =>
    refine h.quiet (Chronicle.log_becomes ..) (by simp) (by simp) rfl id fun k hk => ?_
    simp [Desk.waiting, Session.outstanding, Session.queued, queue] at hk ⊢
    grind
  | untimed =>
    refine h.quiet (Chronicle.log_becomes ..) (by simp) (by simp) rfl id ?_
    exact waiting_subset rfl (List.subset_append_right ..) rfl
  | transmit =>
    refine h.quiet (Chronicle.log_becomes ..) (by simp) (by simp) rfl id ?_
    exact waiting_subset rfl (List.subset_append_left ..) rfl
  | miss =>
    refine h.quiet (Chronicle.log_becomes ..) (by simp) (by simp) rfl id ?_
    exact waiting_subset rfl (List.nil_subset _) rfl
  | @answer c _ _ _ raw call decodes answers =>
    refine h.quiet
      ((Chronicle.log_owing ..).trans ((Chronicle.log_hears ..).trans (Chronicle.log_becomes ..)))
      (by simp) (fun k settled => ?_) rfl id (waiting_subset rfl (List.nil_subset _) rfl)
    -- an answer never says that the session closes
    have closing : call.owner.outcome raw = .error .closing := by
      injection List.mem_singleton.1 settled with _ same
      exact same.symm
    rcases Frame.outcome_cases answers call.owner with ⟨_, same⟩ | ⟨_, same⟩ | ⟨_, _, _, same⟩ <;>
      cases closing.symm.trans same
  | lapse =>
    exact h.quiet ((Chronicle.log_owing ..).trans (Chronicle.log_becomes ..)) (by simp) (by simp)
      rfl id (waiting_subset rfl (List.nil_subset _) rfl)
  | stale =>
    exact h.quiet (Chronicle.log_becomes ..) (by simp) (by simp) rfl id fun _ hk => hk
  | handedOn => exact h.keep rfl [] (List.append_nil _).symm (by simp) rfl id fun _ hk => hk
  | beginClose isOpen =>
    exact h.quiet (Chronicle.log_becomes ..) (by simp) (by simp) (h.unclosed isOpen).symm
      (fun isOpen => by cases isOpen) fun _ hk => hk
  | endClose =>
    exact h.quiet (Chronicle.log_becomes ..) (by simp) (by simp) rfl
      (fun isOpen => by cases isOpen) fun _ hk => hk
  | abandon closing first => exact h.abandon first closing

/-- **Closing counts the calls that fail because of it.** -/
theorem of_reachable (h : d.Reachable) : Forfeits d := by
  induction h with
  | opened =>
    refine ⟨?_, fun _ => rfl, rfl⟩
    intro k hk
    cases hk
  | small reachable step ih =>
    cases step with
    | own step => exact ih.own (.of_reachable reachable) (.of_reachable reachable) step
    | inbound step =>
      have same := step.same
      refine ih.keep same.acceptances [] ?_ (by simp) same.abandoned ?_ fun k hk => ?_
      · rw [same.settlements, List.append_nil]
      · rw [same.phase]
        exact id
      · simpa [Desk.waiting, Session.outstanding, Session.queued, same.slot, same.queue] using hk
    | unlink => exact ih.keep rfl [] (List.append_nil _).symm (by simp) rfl id fun _ hk => hk
  | ambient _ step ih =>
    refine ih.keep ?_ [] ?_ (by simp) (congrArg Session.abandoned step.session) ?_ fun k hk => ?_
    · rw [step.log]
    · rw [step.log, List.append_nil]
    · rw [step.session]
      exact id
    · simpa [Desk.waiting, step.session] using hk

end Forfeits

/-- So it does at a station. -/
theorem Station.Follows.forfeited {s : Station} {m : Diary} (h : s.Follows m) :
    m.log.forfeited.length = s.session.abandoned.getD 0 := by
  have count := (Forfeits.of_reachable h.reachable.desk).count
  rw [show (m.at s.timers s.now).log = m.log from List.append_nil _,
    show (m.at s.timers s.now).session = s.session from h.session] at count
  exact count

end ChargeLink

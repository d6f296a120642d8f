import ChargeLink.Proofs.Session.Fleet
import ChargeLink.Proofs.Session.Told

/-!
# A station runs its session

What a station does to its session is a run of the session: at every moment
there is a diary that has led to where the session is, and the texts among the
notes are those of the diary. So what holds of all chronicles holds of the
sessions of stations. A caller who waits does so for a call without an outcome,
and is told the outcomes of its own requests only.

* `Station.Follows.step`: every step of a station is accounted for in the diary.
* `Station.Reachable.follows`: so every station has a diary.
-/

namespace ChargeLink

variable {c d : Chronicle} {m : Diary}

/-! ## Keys of timers -/

/-- Keys are drawn in order. -/
theorem Small.nextKey_le {d e : Desk} (h : Small d e) :
    d.chronicle.timers.nextKey ≤ e.chronicle.timers.nextKey := by
  cases h with
  | own step =>
    cases step with
    | transmit | miss => exact Nat.le_succ _
    | answer => exact Nat.le_of_eq (Supervisor.nextKey_release ..).symm
    | @lapse c timer call =>
      exact Nat.le_of_eq (Supervisor.nextKey_release (c.timers.abort timer.key) call).symm
    | @abandon c =>
      show c.timers.nextKey ≤ (c.session.slot.slot.elim c.timers c.timers.release).nextKey
      cases c.session.slot.slot with
      | none => exact Nat.le_refl _
      | some call => exact Nat.le_of_eq (Supervisor.nextKey_release ..).symm
    | _ => exact Nat.le_refl _
  | inbound step => rw [step.same.timers]
  | unlink => exact Nat.le_refl _

theorem Smalls.nextKey_le {d e : Desk} (h : Smalls d e) :
    d.chronicle.timers.nextKey ≤ e.chronicle.timers.nextKey := by
  induction h with
  | refl => exact Nat.le_refl _
  | tail _ step ih => exact Nat.le_trans ih step.nextKey_le

namespace Chronicle

/-- What an operation leaves alone, apart from its session. -/
theorem Operation.kept (h : Operation c d) (settled : c.owed = 0) :
    d.past = c.past ∧ d.owed = 0 ∧ c.timers.nextKey ≤ d.timers.nextKey := by
  have keys : ∀ {e}, Relation.ReflTransGen Inner c e → c.timers.nextKey ≤ e.timers.nextKey := by
    intro e inner
    induction inner with
    | refl => exact Nat.le_refl _
    | tail _ step ih => exact Nat.le_trans ih step.2.nextKey_le
  obtain ⟨inner, owed⟩ := h.inner settled
  exact ⟨by cases h <;> rfl, owed, keys inner⟩

end Chronicle

/-! ## Diaries of stations -/

/-- The sends of a diary that have no outcome yet. -/
def Diary.Unsettled (m : Diary) (k : ℕ) : Prop :=
  k < m.asked.length ∧ k ∉ m.log.settled

/-- The outcomes of the sends of a diary. -/
def Diary.Settled (m : Diary) (k : ℕ) (o : Except CallFailure Value) : Prop :=
  ∃ time, (k, time, o) ∈ m.log.settlements

/-- The diary tells how the session of the station came to be where it is, and what its callers have
been told. -/
structure Station.Follows (s : Station) (m : Diary) : Prop where
  reachable : (m.at s.timers s.now).Reachable
  session : m.session = s.session
  own : ∀ t ∈ s.timers.armed, t.task.session = s.session.number
  texts : Station.texts s.notes = m.log.texts
  attended : s.Attended m.Unsettled
  told : s.Told m.asked m.Settled

namespace Station.Follows

variable {s t : Station}

/-- No armed timer is overdue. -/
theorem punctual (h : s.Follows m) : ∀ t ∈ s.timers.armed, s.now ≤ t.deadline := by
  intro t ht
  have sound := Sound.of_reachable h.reachable.desk
  have mine : t ∈ s.timers.ofSession m.session.number := by
    simpa [Supervisor.ofSession, ht, h.session] using h.own t ht
  obtain ⟨call, slot, -, -, deadline⟩ := sound.held_of_armed mine
  obtain ⟨key, -, -, -, -, inTime⟩ := sound.held call slot
  rw [← deadline]
  exact inTime

/-- Time passes, up to the first timer at most. -/
theorem wait (h : s.Follows m) {time : ℕ} (later : s.now ≤ time)
    (punctual : ∀ t ∈ s.timers.armed, time ≤ t.deadline) : Follows { s with now := time } m := by
  refine ⟨?_, h.session, h.own, h.texts, h.attended.congr rfl rfl (Nat.le_refl _),
    h.told.congr rfl fun _ _ => id⟩
  have waited : (m.at s.timers s.now).wait (time - s.now) = m.at s.timers time := by
    simp [Chronicle.wait, Diary.at, Chronicle.log, Chronicle.now, Nat.add_sub_cancel' later]
  have reachable := h.reachable.step (.wait (time - s.now) rfl fun t ht => ?_)
  · rwa [waited] at reachable
  · show s.now + (time - s.now) ≤ t.deadline
    rw [Nat.add_sub_cancel' later]
    exact punctual t (List.mem_filter.1 ht).1

/-- Timers of others are numbered. -/
theorem renumber (h : s.Follows m) {n : ℕ} (later : s.timers.nextKey ≤ n) :
    Follows { s with timers := { s.timers with nextKey := n } } m := by
  refine ⟨?_, h.session, h.own, h.texts, h.attended.congr rfl rfl later,
    h.told.congr rfl fun _ _ => id⟩
  have keyed := (Sound.of_reachable h.reachable.desk).keyed
  exact h.reachable.step (.share { s.timers with nextKey := n }
    ⟨fun t ht => Nat.lt_of_lt_of_le (keyed.fresh t ht) later, keyed.nodup⟩ rfl rfl)

/-- The session does something, and the station takes in what it brings about. Meanwhile its callers
and its notes may have changed as well. -/
theorem adopt (h : s.Follows m) (op : Chronicle.Operation (m.at s.timers s.now) d)
    (attended : t.Attended fun k => k < d.asked.length ∧ k ∉ m.log.settled)
    (told : t.Told d.asked m.Settled)
    (now : t.now = s.now) (notes : Station.texts t.notes = Station.texts s.notes)
    (keys : t.timers.nextKey ≤ s.timers.nextKey) :
    (t.adopt d.turn).Follows d.diary := by
  obtain ⟨past, owed, later⟩ := op.kept rfl
  obtain ⟨reachable, beside⟩ := h.reachable.operate rfl op
  have log : d.log = m.log ++ d.turn.effects.map fun e => (d.now, e) := by
    rw [Chronicle.log, past]
    rfl
  have own : ∀ t ∈ d.timers.armed, t.task.session = d.session.number := by
    intro t ht
    by_contra other
    -- a timer that is not the session's was armed before
    have mine : t.task.session ≠ m.session.number := by
      rw [beside.number] at other
      exact other
    have mem : t ∈ d.timers.ofSession t.task.session := by simpa [Supervisor.ofSession] using ht
    rw [beside.others _ mine] at mem
    rw [h.session] at mine
    exact mine (h.own t (List.mem_filter.1 mem).1)
  have takes := Takes.foldl d.now d.turn.effects
    { t with session := d.session, timers := d.timers }
  obtain ⟨n, numbered, timers⟩ := takes.timers
  refine ⟨?_, takes.session.symm, ?_, ?_, ?_, ?_⟩
  · -- the keys that the station has drawn are those of others to its session
    have keyed := (Sound.of_reachable reachable.desk).keyed
    have here : (t.adopt d.turn).now = d.now := (takes.now.trans now).trans beside.now.symm
    have shared := (reachable.diary owed).step (.share { d.timers with nextKey := n }
      ⟨fun t ht => Nat.lt_of_lt_of_le (keyed.fresh t ht) numbered, keyed.nodup⟩ rfl rfl)
    show (d.diary.at (t.adopt d.turn).timers (t.adopt d.turn).now).Reachable
    rw [here, show (t.adopt d.turn).timers = { d.timers with nextKey := n } from timers]
    exact shared
  · intro u hu
    rw [show (t.adopt d.turn).timers = { d.timers with nextKey := n } from timers] at hu
    rw [show (t.adopt d.turn).session = d.session from takes.session]
    exact own u hu
  · show Station.texts (t.adopt d.turn).notes = d.log.texts
    rw [show Station.texts (t.adopt d.turn).notes = _ from takes.texts]
    show Station.texts t.notes ++ _ = _
    simp only [log, Log.view_append, notes, h.texts]
  · have moved : Attended { t with session := d.session, timers := d.timers } _ :=
      attended.congr rfl rfl (Nat.le_trans keys later)
    refine (moved.foldl d.turn.effects).mono fun k hk => ⟨hk.1.1, ?_⟩
    show k ∉ d.log.settled
    rw [log, Log.settled, Log.view_append, List.mem_append, not_or]
    refine ⟨hk.1.2, fun mem => ?_⟩
    obtain ⟨o, mem⟩ := Log.mem_settled_iff.1 mem
    exact hk.2 o mem
  · have moved : Told { t with session := d.session, timers := d.timers } _ _ :=
      told.congr rfl fun _ _ => id
    refine (moved.foldl d.turn.effects).mono List.prefix_rfl fun k o outcome => ?_
    show ∃ time, (k, time, o) ∈ d.log.settlements
    rw [log, Log.settlements, Log.view_append]
    rcases outcome with ⟨time, mem⟩ | mem
    · exact ⟨time, List.mem_append_left _ mem⟩
    · exact ⟨d.now, List.mem_append_right _ (Log.mem_settlements.2 mem)⟩

/-- The session does something, and the callers stay as they are. -/
theorem act (h : s.Follows m) {f : Turn → Turn}
    (op : Chronicle.Operation (m.at s.timers s.now) d) (turn : d.turn = f s.turn)
    (asked : d.asked = m.asked) : (s.act f).Follows d.diary := by
  rw [Station.act, ← turn]
  have attended : s.Attended fun k => k < d.asked.length ∧ k ∉ m.log.settled := by
    rw [asked]
    exact h.attended
  have told : s.Told d.asked m.Settled := by
    rw [asked]
    exact h.told
  exact h.adopt op attended told rfl rfl (Nat.le_refl _)

/-- A caller who makes an attempt waits for a call of its own. -/
theorem attended_attempt (h : s.Follows m) (c : Caller) :
    (s.putCaller (c.next s.session.issued)).Attended fun k =>
      k < ((m.at s.timers s.now).send c.message c.request).asked.length ∧ k ∉ m.log.settled := by
  have accounts := Accounts.of_reachable h.reachable.desk
  have log : (m.at s.timers s.now).log = m.log := List.append_nil _
  have asked : m.asked.length = m.session.issued := accounts.asked
  -- the ticket is new
  have fresh : m.session.issued ∉ m.log.settled := by
    intro settled
    rw [← log] at settled
    exact Nat.lt_irrefl _ (accounts.settled_lt settled)
  have more : ((m.at s.timers s.now).send c.message c.request).asked.length = m.asked.length + 1 :=
    List.length_append
  rw [more, asked, ← h.session]
  have attempted := h.attended.next c (k := m.session.issued) fun waited => by
    exact Nat.ne_of_lt waited.1 asked.symm
  refine attempted.mono fun k hk => ?_
  rcases hk with ⟨lt, unsettled⟩ | rfl
  · rw [asked] at lt
    exact ⟨Nat.lt_succ_of_lt lt, unsettled⟩
  · exact ⟨Nat.lt_succ_self _, fresh⟩

/-- The turn of a station is that of its diary. -/
theorem turn (h : s.Follows m) : s.turn = (m.at s.timers s.now).turn := by
  rw [Station.turn, Diary.at, h.session]

/-- It waits for the outcome of a send of its own request. -/
theorem told_attempt (h : s.Follows m) {c : Caller} (mem : c ∈ s.callers) :
    (s.putCaller (c.next s.session.issued)).Told
      ((m.at s.timers s.now).send c.message c.request).asked m.Settled := by
  have asked : m.asked.length = s.session.issued :=
    (Accounts.of_reachable h.reachable.desk).asked.trans (congrArg Session.issued h.session)
  have more : m.asked <+: ((m.at s.timers s.now).send c.message c.request).asked :=
    List.prefix_append ..
  refine (h.told.mono more fun _ _ => id).put mem (c.attempt + 1) (.waiting s.session.issued) ?_
  intro k waits
  cases waits
  show (m.asked ++ [(c.message, c.request)])[s.session.issued]? = _
  rw [← asked, List.getElem?_concat_length]

theorem attempt (h : s.Follows m) {c : Caller} (mem : c ∈ s.callers) :
    (s.attempt c).Follows ((m.at s.timers s.now).send c.message c.request).diary := by
  rw [attempt_eq, h.turn]
  exact h.adopt (.send c.message c.request) (h.attended_attempt c) (h.told_attempt mem) rfl rfl
    (Nat.le_refl _)

/-- A new caller makes its first attempt. -/
theorem issue (h : s.Follows m) {number : ℕ} (message : Message) (v : Value) (retry : Bool)
    (fresh : number ∉ s.callers.map Caller.number) :
    ∃ m', (s.issue number message v retry).Follows m' := by
  have joined := h.attended.join ⟨number, message, v, retry && message.transactional v, 0, .done,
    true⟩ fresh rfl
  have followed : Follows { s with callers := s.callers ++ [_] } m :=
    ⟨h.reachable, h.session, h.own, h.texts, joined, h.told.join _ fresh rfl⟩
  exact ⟨_, followed.attempt (List.mem_append_right _ List.mem_cons_self)⟩

/-- A timer of the session comes. -/
theorem expiry (h : s.Follows m) {t : Timer Expiry} (armed : t ∈ s.timers.armed)
    (due : t.deadline ≤ s.now) (alive : s.gone = false) : ∃ m', (s.fireExpiry t).Follows m' := by
  have mine : t ∈ s.timers.ofSession m.session.number := by
    simpa [Supervisor.ofSession, armed, h.session] using h.own t armed
  have kept : Attended { s with timers := s.timers.abort t.key } m.Unsettled :=
    h.attended.congr rfl rfl (Nat.le_refl _)
  have told : Told { s with timers := s.timers.abort t.key } m.asked m.Settled :=
    h.told.congr rfl fun _ _ => id
  have followed := h.adopt (.expire t mine due) kept told rfl rfl (Nat.le_refl _)
  have same : ((m.at s.timers s.now).expire t).turn =
      ({ s with timers := s.timers.abort t.key } : Station).turn.expire t.task.call := by
    simp [Chronicle.expire, Diary.at, Station.turn, h.session]
  rw [fireExpiry_of_due due alive, Station.act, ← same]
  exact ⟨_, followed⟩

/-- An entry of the agenda comes. -/
theorem wake (h : s.Follows m) {t : Timer Wake} (mem : t ∈ s.agenda) (due : t.deadline ≤ s.now) :
    ∃ m', (s.fireWake t).Follows m' := by
  rw [fireWake_of_due due]
  have turn : (s.without t).turn = (m.at s.timers s.now).turn := h.turn
  cases task : t.task with
  | handler answer =>
    have dropped := h.attended.drop mem fun a _ _ woken => by simp [task] at woken
    have told : (s.without t).Told m.asked m.Settled := h.told.congr rfl fun _ _ => id
    have followed := h.adopt (.finish answer) dropped told rfl rfl (Nat.le_refl _)
    simp only [Station.act, turn]
    exact ⟨_, followed⟩
  | caller number =>
    cases found : s.callers.find? fun c : Caller => c.number = number with
    | some c =>
      have same : c.number = number := by simpa using List.find?_some found
      -- the caller makes an attempt, and does not pause any more
      have dropped := (h.attended_attempt c).drop mem fun a ha pauses woken => by
        rcases mem_putCaller ha with rfl | ⟨-, other⟩
        · cases pauses
        · rw [task] at woken
          cases woken
          exact other same.symm
      have told := (h.told_attempt (List.mem_of_find?_eq_some found)).congr
        (t := (s.putCaller (c.next s.session.issued)).without t) rfl fun _ _ => id
      have followed := h.adopt (.send c.message c.request) dropped told rfl rfl (Nat.le_refl _)
      simp only [found, attempt_eq, turn]
      exact ⟨_, followed⟩
    | none =>
      have dropped := h.attended.drop mem fun a ha _ woken => by
        rw [task] at woken
        cases woken
        exact List.find?_eq_none.1 found a ha (by simp)
      simp only [found]
      exact ⟨m, h.reachable, h.session, h.own, h.texts, dropped, h.told.congr rfl fun _ _ => id⟩

/-- The station does a piece of its work. -/
theorem work (h : s.Follows m) {limit : ℕ} {w : Work} (next : s.work? limit = some w)
    (alive : (s.perform w).gone = false) : ∃ m', (s.perform w).Follows m' := by
  have before : s.gone = false := gone_perform alive
  rcases work?_eq_some next with now | ⟨-, deadline, key, timer, -⟩
  · unfold workNow? at now
    split at now
    · rename_i answer _
      cases now
      have idle : Follows { s with ready := none } m :=
        ⟨h.reachable, h.session, h.own, h.texts, h.attended.congr rfl rfl (Nat.le_refl _),
          h.told.congr rfl fun _ _ => id⟩
      have finish : ((m.at s.timers s.now).finish answer).turn = s.turn.finish answer := by
        rw [h.turn]
        rfl
      exact ⟨_, idle.act (f := fun t => t.finish answer) (.finish answer) finish rfl⟩
    · split at now
      · cases now
        rw [perform, vanish, (Takes.foldl_report _ _ _).gone] at alive
        cases alive
      · split at now
        · cases now
          have serve : (m.at s.timers s.now).serve.turn = s.turn.serve := by
            rw [h.turn]
            rfl
          exact ⟨_, h.act .serve serve rfl⟩
        · cases now
  · obtain ⟨which, first, -⟩ := timer?_eq_some timer
    have waited : Follows { s with now := max s.now deadline } m :=
      h.wait (Nat.le_max_left ..) fun u hu => Nat.max_le.2 ⟨h.punctual u hu, first u hu⟩
    rcases which with ⟨t, armed, rfl, rfl⟩ | ⟨t, mem, rfl, rfl⟩
    · rw [perform_expiry]
      exact waited.expiry armed (Nat.le_max_right ..) before
    · rw [perform_wake]
      exact waited.wake mem (Nat.le_max_right ..)

/-- **Whatever happens to a station is a run of its session.** -/
theorem step (h : s.Follows m) (step : Step s t) (alive : t.gone = false) :
    ∃ m', t.Follows m' := by
  -- what the session does is the same in the station and in the diary
  have act : ∀ {f : Turn → Turn} {d : Chronicle}, Chronicle.Operation (m.at s.timers s.now) d →
      d.turn = f (m.at s.timers s.now).turn → d.asked = m.asked → ∃ m', (s.act f).Follows m' := by
    intro f d op turn asked
    rw [← h.turn] at turn
    exact ⟨_, h.act op turn asked⟩
  cases step with
  | issue number message v retry _ fresh => exact h.issue message v retry fresh
  | receive text => exact act (f := fun t => t.receive text) (.receive text) rfl rfl
  | unlink => exact act .unlink rfl rfl
  | closing step => exact act (f := fun t => t.closing step) (.closing step) rfl rfl
  | takeUp => exact act .takeUp rfl rfl
  | handle => exact act .handle rfl rfl
  | forget number =>
    exact ⟨m, h.reachable, h.session, h.own, h.texts, h.attended.forget number,
      h.told.forget number⟩
  | release =>
    exact ⟨m, h.reachable, h.session, h.own, h.texts, h.attended.congr rfl rfl (Nat.le_refl _),
      h.told.congr rfl fun _ _ => id⟩
  | work limit next => exact h.work next alive
  | pass time later idle =>
    exact ⟨m, h.wait later fun t ht => Nat.le_of_lt ((work?_eq_none idle).2.1 t ht)⟩
  | renumber n later => exact ⟨m, h.renumber later⟩
  | retally =>
    exact ⟨m, h.reachable, h.session, h.own, h.texts, h.attended.congr rfl rfl (Nat.le_refl _),
      h.told.congr rfl fun _ _ => id⟩

end Station.Follows

/-- **Every station has a diary**, as long as it is there. -/
theorem Station.Reachable.follows {s : Station} (h : s.Reachable) (alive : s.gone = false) :
    ∃ m, s.Follows m := by
  induction h with
  | opened number chargePointId registry config codec label loop now tally =>
    have opened := Chronicle.Reachable.opened number chargePointId registry config codec label
      (.create loop) now ⟨by simp [Supervisor.create], List.nodup_nil⟩ rfl
    -- there are neither timers nor callers yet
    refine ⟨_, opened.diary rfl, rfl, ?_, rfl, ⟨List.nodup_nil, ?_, ?_, ?_, List.nodup_nil, ?_⟩,
      List.nodup_nil, ?_, ?_⟩
    · intro t ht
      cases ht
    · intro a ha
      cases ha
    · intro a ha
      cases ha
    · intro a ha
      cases ha
    · intro t ht
      cases ht
    · intro a ha
      cases ha
    · intro n o mem
      cases List.mem_singleton.1 mem
  | step _ step ih =>
    obtain ⟨m, follows⟩ := ih (step.alive alive)
    exact follows.step step alive

end ChargeLink

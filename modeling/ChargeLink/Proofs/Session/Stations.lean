import ChargeLink.Proofs.Session.Closing
import ChargeLink.Session.Station

/-!
# Runs of a station

What may happen to a station, in any order: requests of new callers, texts, the
loss of the transport, the steps of closing, and the station's own work. Work
comes in the order in which the station does it, but anything else may come in
between, also after the worker has taken up a call and before it answers it.

A station takes in the effects of its session one after the other. `Takes` says
what this leaves alone, and `Attended` what holds of the callers all the time:
they are told apart by their numbers and tickets, and one who pauses will be
woken.

* `Station.work?_timer`: a timer comes when no other one is due before it.
* `Attended.absorb`: a caller whose call is settled does not wait for it any more.
-/

namespace ChargeLink

/-- The earliest timer is no later than any other. -/
theorem Supervisor.earliest_le {α : Type} {l : List (Timer α)} {t : Timer α}
    (h : Supervisor.earliest l = some t) : ∀ u ∈ l, t.deadline ≤ u.deadline := by
  induction l generalizing t with
  | nil => simp
  | cons v r ih =>
    rw [Supervisor.earliest] at h
    cases first : Supervisor.earliest r with
    | none =>
      rw [first] at h
      cases h
      rw [Supervisor.earliest_eq_none_iff.1 first]
      simp
    | some u =>
      have rest := ih first
      rw [first] at h
      by_cases before : u.before v = true
      · simp only [if_pos before, Option.some.injEq] at h
        subst h
        have le : u.deadline ≤ v.deadline := by
          simp only [Timer.before, Bool.or_eq_true, decide_eq_true_eq, Bool.and_eq_true,
            beq_iff_eq] at before
          omega
        exact List.forall_mem_cons.2 ⟨le, rest⟩
      · simp only [if_neg before, Option.some.injEq] at h
        subst h
        have le : v.deadline ≤ u.deadline := by
          simp only [Timer.before, Bool.or_eq_true, decide_eq_true_eq, Bool.and_eq_true,
            beq_iff_eq] at before
          omega
        exact List.forall_mem_cons.2 ⟨Nat.le_refl _, fun w hw => Nat.le_trans le (rest w hw)⟩

/-- An outcome is that of an effect. -/
theorem Log.mem_settlements {k time : ℕ} {o : Except CallFailure Value} {es : List Effect} :
    (k, time, o) ∈ Log.settlements (es.map fun e => (time, e)) ↔ Effect.settled k o ∈ es := by
  induction es with
  | nil => simp
  | cons e es ih =>
    simp only [List.map_cons, Log.view_cons, List.mem_append, ih]
    cases e <;> simp

/-- A ticket is settled by an effect. -/
theorem Log.mem_settled_iff {k time : ℕ} {es : List Effect} :
    k ∈ Log.settled (es.map fun e => (time, e)) ↔ ∃ o, Effect.settled k o ∈ es := by
  induction es with
  | nil => simp
  | cons e es ih =>
    simp only [List.map_cons, Log.view_cons, List.mem_append, ih]
    cases e <;> simp [exists_or, eq_comm]

/-- The caller once it has made its next attempt. -/
def Caller.next (c : Caller) (ticket : ℕ) : Caller :=
  { c with attempt := c.attempt + 1, state := .waiting ticket }

namespace Station

/-! ## Runs -/

/-- What may happen to a station. Once it is no more, nobody is left to ask it for anything. -/
inductive Step : Station → Station → Prop
  | issue {s} (number : ℕ) (m : Message) (v : Value) (retry : Bool) (alive : s.gone = false)
      (fresh : number ∉ s.callers.map Caller.number) : Step s (s.issue number m v retry)
  | receive {s} (text : String) (alive : s.gone = false) : Step s (s.act fun t => t.receive text)
  | unlink {s} (alive : s.gone = false) : Step s (s.act Turn.unlink)
  | closing {s} (step : ClosingStep) (alive : s.gone = false) :
      Step s (s.act fun t => t.closing step)
  | takeUp {s} (alive : s.gone = false) : Step s (s.act Turn.takeUp)
  | handle {s} (alive : s.gone = false) : Step s (s.act Turn.handle)
  | forget {s} (number : ℕ) : Step s (s.forget number)
  | release {s} : Step s s.release
  | work {s w} (limit : ℕ) (next : s.work? limit = some w) : Step s (s.perform w)
  | pass {s} (time : ℕ) (later : s.now ≤ time) (idle : s.work? time = none) :
      Step s { s with now := time }
  /-- Other stations have numbered timers of theirs. -/
  | renumber {s} (n : ℕ) (later : s.timers.nextKey ≤ n) :
      Step s { s with timers := { s.timers with nextKey := n } }
  /-- Other stations have entered handlers. -/
  | retally {s} (tally : Tally) : Step s { s with tally }

/-- The station `t` may follow `s` after any number of steps. -/
abbrev Steps : Station → Station → Prop :=
  Relation.ReflTransGen Step

/-- The stations of all runs. -/
inductive Reachable : Station → Prop
  | opened (number : ℕ) (chargePointId : String) (registry : Registry) (config : SessionConfig)
      (codec : Codec) (label : String) (loop : Bool) (now : ℕ) (tally : Tally) :
      Reachable (.ofTurn (.openSession number chargePointId registry config codec label
        (.create loop) now) tally)
  | step {s t} : Reachable s → Step s t → Reachable t

variable {s t u : Station}

theorem Reachable.steps (hs : s.Reachable) (h : Steps s t) : t.Reachable := by
  induction h with
  | refl => exact hs
  | tail _ step ih => exact ih.step step

/-! ## Work -/

theorem timer?_eq_none (h : s.timer? = none) : s.timers.armed = [] ∧ s.agenda = [] := by
  unfold timer? at h
  cases armed : Supervisor.earliest s.timers.armed <;>
    cases agenda : Supervisor.earliest s.agenda <;> simp [armed, agenda] at h
  · exact ⟨Supervisor.earliest_eq_none_iff.1 armed, Supervisor.earliest_eq_none_iff.1 agenda⟩
  · split at h <;> cases h

/-- The timer that comes first is one of the session or one of the agenda, and no other one is due
before it. -/
theorem timer?_eq_some {deadline key : ℕ} {w : Work} (h : s.timer? = some (deadline, key, w)) :
    ((∃ t ∈ s.timers.armed, w = .expiry t ∧ t.deadline = deadline) ∨
      ∃ t ∈ s.agenda, w = .wake t ∧ t.deadline = deadline) ∧
    (∀ t ∈ s.timers.armed, deadline ≤ t.deadline) ∧ ∀ t ∈ s.agenda, deadline ≤ t.deadline := by
  unfold timer? at h
  cases armed : Supervisor.earliest s.timers.armed with
  | none =>
    have none := Supervisor.earliest_eq_none_iff.1 armed
    cases agenda : Supervisor.earliest s.agenda with
    | none => simp [armed, agenda] at h
    | some b =>
      simp only [armed, agenda, Option.map_none, Option.map_some, Option.some.injEq,
        Prod.mk.injEq] at h
      obtain ⟨rfl, -, rfl⟩ := h
      exact ⟨.inr ⟨b, Supervisor.mem_of_earliest agenda, rfl, rfl⟩, by simp [none],
        Supervisor.earliest_le agenda⟩
  | some a =>
    have first := Supervisor.earliest_le armed
    have mem := Supervisor.mem_of_earliest armed
    cases agenda : Supervisor.earliest s.agenda with
    | none =>
      have none := Supervisor.earliest_eq_none_iff.1 agenda
      simp only [armed, agenda, Option.map_none, Option.map_some, Option.some.injEq,
        Prod.mk.injEq] at h
      obtain ⟨rfl, -, rfl⟩ := h
      exact ⟨.inl ⟨a, mem, rfl, rfl⟩, first, by simp [none]⟩
    | some b =>
      have first' := Supervisor.earliest_le agenda
      simp only [armed, agenda, Option.map_some] at h
      split at h
      · rename_i before
        cases h
        have le : b.deadline ≤ a.deadline := by
          simp only [Bool.or_eq_true, decide_eq_true_eq, Bool.and_eq_true, beq_iff_eq] at before
          omega
        exact ⟨.inr ⟨b, Supervisor.mem_of_earliest agenda, rfl, rfl⟩,
          fun t ht => Nat.le_trans le (first t ht), first'⟩
      · rename_i before
        cases h
        have le : a.deadline ≤ b.deadline := by
          simp only [Bool.or_eq_true, decide_eq_true_eq, Bool.and_eq_true, beq_iff_eq] at before
          omega
        exact ⟨.inl ⟨a, mem, rfl, rfl⟩, first, fun t ht => Nat.le_trans le (first' t ht)⟩

/-- Work that needs no time comes first, and then the timers up to the limit. -/
theorem work?_eq_some {limit : ℕ} {w : Work} (h : s.work? limit = some w) :
    s.workNow? = some w ∨ s.workNow? = none ∧
      ∃ deadline key, s.timer? = some (deadline, key, w) ∧ deadline ≤ limit := by
  unfold work? at h
  cases now : s.workNow? with
  | some w' =>
    rw [now] at h
    exact .inl h
  | none =>
    cases timer : s.timer? with
    | none => simp [now, timer] at h
    | some x =>
      obtain ⟨deadline, key, w'⟩ := x
      simp only [now, timer] at h
      split at h
      · cases h
        exact .inr ⟨rfl, deadline, key, rfl, ‹_›⟩
      · cases h

/-- Without work up to a limit, every timer comes later. -/
theorem work?_eq_none {limit : ℕ} (h : s.work? limit = none) :
    s.workNow? = none ∧ (∀ t ∈ s.timers.armed, limit < t.deadline) ∧
      ∀ t ∈ s.agenda, limit < t.deadline := by
  unfold work? at h
  cases now : s.workNow? with
  | some w => simp [now] at h
  | none =>
    cases timer : s.timer? with
    | none =>
      obtain ⟨armed, agenda⟩ := timer?_eq_none timer
      simp [armed, agenda]
    | some x =>
      obtain ⟨deadline, key, w⟩ := x
      simp only [now, timer] at h
      split at h
      · cases h
      · rename_i late
        obtain ⟨-, armed, agenda⟩ := timer?_eq_some timer
        exact ⟨rfl, fun t ht => Nat.lt_of_lt_of_le (Nat.lt_of_not_le late) (armed t ht),
          fun t ht => Nat.lt_of_lt_of_le (Nat.lt_of_not_le late) (agenda t ht)⟩

/-! ## What taking in effects leaves alone -/

/-- From `s` to `t` a station has taken in effects with these texts: its session and its time are
the same, and timers have only been numbered. -/
structure Takes (s t : Station) (sent : List String) : Prop where
  session : t.session = s.session
  now : t.now = s.now
  gone : t.gone = s.gone
  held : t.held = s.held
  timers : ∃ n, s.timers.nextKey ≤ n ∧ t.timers = { s.timers with nextKey := n }
  texts : texts t.notes = texts s.notes ++ sent

namespace Takes

theorem refl (s : Station) : Takes s s [] :=
  ⟨rfl, rfl, rfl, rfl, ⟨_, Nat.le_refl _, rfl⟩, by simp⟩

theorem trans {l l' : List String} (h : Takes s t l) (h' : Takes t u l') : Takes s u (l ++ l') := by
  refine ⟨h'.session.trans h.session, h'.now.trans h.now, h'.gone.trans h.gone,
    h'.held.trans h.held, ?_, ?_⟩
  · obtain ⟨n, le, timers⟩ := h.timers
    obtain ⟨n', le', timers'⟩ := h'.timers
    rw [timers] at le' timers'
    exact ⟨n', Nat.le_trans le le', timers'⟩
  · rw [h'.texts, h.texts, List.append_assoc]

/-- A note is made. -/
theorem note (s : Station) (n : Note) : Takes s (s.note n) (Station.texts [n]) :=
  ⟨rfl, rfl, rfl, rfl, ⟨_, Nat.le_refl _, rfl⟩, List.filterMap_append⟩

/-- Something is put on the agenda. -/
theorem later (s : Station) (pause : ℕ) (wake : Wake) : Takes s (s.later pause wake) [] :=
  ⟨rfl, rfl, rfl, rfl, ⟨_, Nat.le_succ _, rfl⟩, by simp [Station.later]⟩

/-- A caller is replaced. -/
theorem putCaller (s : Station) (c : Caller) : Takes s (s.putCaller c) [] :=
  ⟨rfl, rfl, rfl, rfl, ⟨_, Nat.le_refl _, rfl⟩, by simp [Station.putCaller]⟩

theorem report (s : Station) (c : Caller) (o : Except CallFailure Value) :
    Takes s (s.report c o) [] := by
  unfold Station.report
  split
  · exact (putCaller ..).trans (note ..)
  · exact putCaller ..

theorem foldl_report (o : Except CallFailure Value) : ∀ (callers : List Caller) (s : Station),
    Takes s (callers.foldl (fun s c => s.report c o) s) []
  | [], s => refl s
  | c :: r, s => (report s c o).trans (foldl_report o r (s.report c o))

theorem settled (s : Station) (k : ℕ) (o : Except CallFailure Value) :
    Takes s (s.settled k o) [] := by
  unfold Station.settled
  split
  · exact refl s
  · split
    · exact report ..
    · split
      · split
        · exact report ..
        · exact putCaller ..
        · exact (putCaller ..).trans (later ..)
      · exact report ..

theorem entered (s : Station) (h : Handler) (request : Value) :
    Takes s (s.entered h request) [] := by
  have texts : Station.texts (s.notes ++ [.entered h request]) = Station.texts s.notes ++ [] :=
    List.filterMap_append
  unfold Station.entered
  simp only
  split
  · exact ⟨rfl, rfl, rfl, rfl, ⟨_, Nat.le_refl _, rfl⟩, texts⟩
  · exact ⟨rfl, rfl, rfl, rfl, ⟨_, Nat.le_succ _, rfl⟩, texts⟩

theorem absorb (s : Station) (e : Effect) (time : ℕ) :
    Takes s (s.absorb e) (Log.texts [(time, e)]) := by
  cases e with
  | sent | published | dispatched => exact note ..
  | settled => exact settled ..
  | entered => exact entered ..
  | accepted | started | called | returned => exact refl s

theorem foldl (time : ℕ) : ∀ (es : List Effect) (s : Station),
    Takes s (es.foldl Station.absorb s) (Log.texts (es.map fun e => (time, e)))
  | [], s => refl s
  | e :: es, s => by
    have rest := (absorb s e time).trans (foldl time es (s.absorb e))
    rwa [Log.texts, Log.texts, ← Log.view_append] at rest

end Takes

theorem session_adopt (s : Station) (t : Turn) : (s.adopt t).session = t.session :=
  (Takes.foldl t.now t.effects { s with session := t.session, timers := t.timers }).session

/-! ## Stations that are no more -/

theorem gone_adopt (s : Station) (t : Turn) : (s.adopt t).gone = s.gone :=
  (Takes.foldl t.now t.effects { s with session := t.session, timers := t.timers }).gone

theorem gone_perform {w : Work} (alive : (s.perform w).gone = false) : s.gone = false := by
  cases w with
  | vanish =>
    rw [perform, vanish, (Takes.foldl_report _ _ _).gone] at alive
    cases alive
  | finish | serve =>
    rw [perform, act, gone_adopt] at alive
    exact alive
  | expiry t =>
    rw [perform, fireExpiry] at alive
    simp only at alive
    split at alive
    · exact alive
    · rwa [act, gone_adopt] at alive
  | wake t =>
    rw [perform, fireWake] at alive
    simp only at alive
    split at alive
    · rwa [act, gone_adopt] at alive
    · split at alive
      · rwa [attempt, gone_adopt] at alive
      · exact alive

/-- A station that is no more stays so. -/
theorem Step.alive (h : Step s t) (alive : t.gone = false) : s.gone = false := by
  cases h with
  | issue _ _ _ _ before | receive _ before | unlink before | closing _ before
  | takeUp before | handle before => exact before
  | work limit next => exact gone_perform alive
  | _ => exact alive

/-! ## Closing at once -/

/-- Callers and handlers are served in the same way by two sessions. -/
structure Serves (x y : Session) : Prop where
  isOpen : y.isOpen = x.isOpen
  config : y.config = x.config
  registry : y.registry = x.registry

theorem absorb_serves {y : Session} (serves : Serves s.session y) (e : Effect) :
    ({ s with session := y } : Station).absorb e = { s.absorb e with session := y } := by
  cases e with
  | sent | published | accepted | started | called | returned => rfl
  | dispatched =>
    simp only [Station.absorb, serves.registry]
    rfl
  | entered c h request =>
    simp only [Station.absorb, Station.entered]
    split <;> rfl
  | settled k o =>
    simp only [Station.absorb, Station.settled, serves.config, serves.isOpen]
    split
    · rfl
    · simp only [Station.report]
      split
      · split <;> rfl
      · split
        · split
          · split <;> rfl
          · rfl
          · rfl
        · split <;> rfl

theorem foldl_serves {y : Session} : ∀ (es : List Effect) (s : Station), Serves s.session y →
    es.foldl Station.absorb { s with session := y } =
      { es.foldl Station.absorb s with session := y }
  | [], _, _ => rfl
  | e :: es, s, serves => by
    have same : (s.absorb e).session = s.session := (Takes.absorb s e s.now).session
    rw [List.foldl_cons, List.foldl_cons, absorb_serves serves, foldl_serves es _ (same ▸ serves)]

/-- Closing an open session is taking all steps of it. -/
theorem close_of_open (isOpen : s.session.phase = .opened) :
    s.close.2 = ((s.act fun t => t.closing .start).act fun t => t.closing .abandon).act
      fun t => t.closing .finish := by
  have begun : s.act (fun t => t.closing .start) =
      { s with session := { s.session with phase := .closing, abandoned := none } } := by
    rw [act, Turn.closing, Turn.beginClose_of_open isOpen]
    rfl
  set x : Session :=
    { s.session with
      phase := .closing
      slot := .empty
      queue := []
      abandoned := some s.session.waiting.length } with hx
  set timers := s.session.slot.slot.elim s.timers s.timers.release
  set u := s.session.abandonment.foldl Station.absorb { s with session := x, timers }
  have abandoned : (s.act fun t => t.closing .start).act (fun t => t.closing .abandon) = u := by
    rw [begun, act, Turn.closing, Turn.abandon_of_closing rfl rfl]
    rfl
  have session : u.turn.session = x := (Takes.foldl s.now s.session.abandonment _).session
  have ended : ((s.act fun t => t.closing .start).act fun t => t.closing .abandon).act
      (fun t => t.closing .finish) =
        ({ u with session := { x with linked := false, phase := .closed } } : Station).note
          (.published (x.event (.closed s.session.waiting.length))) := by
    rw [abandoned, act, Turn.closing, Turn.endClose_of_abandoned (congrArg Session.phase session)
      (congrArg Session.abandoned session), session]
    rfl
  -- the callers are told the same, whether the session closes or is closed by then
  have told : s.session.abandonment.foldl Station.absorb
      { s with session := { x with linked := false, phase := .closed }, timers } =
        { u with session := { x with linked := false, phase := .closed } } :=
    foldl_serves s.session.abandonment { s with session := x, timers } ⟨rfl, rfl, rfl⟩
  rw [ended, ← told, Station.close, Turn.close_of_open isOpen]
  exact List.foldl_append

/-- Closing a session that is not open does nothing. -/
theorem close_of_not_open (ended : s.session.phase ≠ .opened) : s.close = (0, s) := by
  rw [Station.close, Turn.close_of_not_open ended]
  rfl

/-- Closing a session at once is a run. -/
theorem steps_close (alive : s.gone = false) : Steps s s.close.2 := by
  by_cases isOpen : s.session.phase = .opened
  · have still : ∀ {u : Station} (step : ClosingStep), u.gone = false →
        (u.act fun t => t.closing step).gone = false := fun step alive =>
      (gone_adopt ..).trans alive
    have begun := still .start alive
    have abandoned := still .abandon begun
    rw [close_of_open isOpen]
    exact .tail (.tail (.single (.closing .start alive)) (.closing .abandon begun))
      (.closing .finish abandoned)
  · rw [close_of_not_open isOpen]

/-! ## Callers -/

/-- The station without an entry of its agenda. -/
def without (s : Station) (t : Timer Wake) : Station :=
  { s with agenda := s.agenda.filter fun u => u.key != t.key }

/-- An attempt: the caller waits, and the station takes in what its send has brought about. -/
theorem attempt_eq (s : Station) (c : Caller) : s.attempt c =
    (s.putCaller (c.next s.session.issued)).adopt (s.turn.send c.message c.request).2 :=
  rfl

/-- An entry of the agenda that is due comes. -/
theorem fireWake_of_due {t : Timer Wake} (due : t.deadline ≤ s.now) : s.fireWake t =
    match t.task with
    | .handler answer => (s.without t).act fun turn => turn.finish answer
    | .caller number =>
      match s.callers.find? fun c : Caller => c.number = number with
      | some c => (s.without t).attempt c
      | none => s.without t := by
  rw [fireWake, Nat.max_eq_left due]
  rfl

/-- Until an entry of the agenda comes, time passes. -/
theorem perform_wake (s : Station) (t : Timer Wake) :
    s.perform (.wake t) = ({ s with now := max s.now t.deadline } : Station).fireWake t := by
  simp [perform, fireWake]

/-- Until a timer of the session comes, time passes. -/
theorem perform_expiry (s : Station) (t : Timer Expiry) :
    s.perform (.expiry t) = ({ s with now := max s.now t.deadline } : Station).fireExpiry t := by
  simp [perform, fireExpiry]

/-- A timer of the session that is due comes. -/
theorem fireExpiry_of_due {t : Timer Expiry} (due : t.deadline ≤ s.now) (alive : s.gone = false) :
    s.fireExpiry t =
      ({ s with timers := s.timers.abort t.key }).act fun turn => turn.expire t.task.call := by
  rw [fireExpiry, Nat.max_eq_left due]
  simp [alive]

/-- Callers are told apart by their numbers and by the tickets they wait for, all of which are open,
and who pauses has an entry on the agenda. -/
structure Attended (s : Station) (isOpen : ℕ → Prop) : Prop where
  numbers : (s.callers.map Caller.number).Nodup
  waiting : ∀ a ∈ s.callers, ∀ k, a.state = .waiting k → isOpen k
  apart : ∀ a ∈ s.callers, ∀ b ∈ s.callers, ∀ k, a.state = .waiting k → b.state = .waiting k → a = b
  pausing : ∀ a ∈ s.callers, a.state = .pausing → ∃ t ∈ s.agenda, t.task = .caller a.number
  keys : (s.agenda.map Timer.key).Nodup
  fresh : ∀ t ∈ s.agenda, t.key < s.timers.nextKey

theorem mem_putCaller {a c : Caller} (h : a ∈ (s.putCaller c).callers) :
    a = c ∨ a ∈ s.callers ∧ a.number ≠ c.number := by
  obtain ⟨b, hb, same⟩ := List.mem_map.1 h
  split at same
  · exact .inl same.symm
  · subst same
    exact .inr ⟨hb, ‹_›⟩

theorem numbers_putCaller (s : Station) (c : Caller) :
    (s.putCaller c).callers.map Caller.number = s.callers.map Caller.number := by
  rw [putCaller, List.map_map]
  refine List.map_congr_left fun a _ => ?_
  simp only [Function.comp_apply]
  split
  · exact Eq.symm ‹_›
  · rfl

namespace Attended

variable {isOpen isOpen' : ℕ → Prop}

/-- Callers and agenda are the same, and fewer numbers are left. -/
theorem congr (h : Attended s isOpen) (callers : t.callers = s.callers)
    (agenda : t.agenda = s.agenda) (later : s.timers.nextKey ≤ t.timers.nextKey) :
    Attended t isOpen := by
  refine ⟨?_, ?_, ?_, ?_, ?_, fun u hu => ?_⟩
  · rw [callers]
    exact h.numbers
  · rw [callers]
    exact h.waiting
  · rw [callers]
    exact h.apart
  · rw [callers, agenda]
    exact h.pausing
  · rw [agenda]
    exact h.keys
  · rw [agenda] at hu
    exact Nat.lt_of_lt_of_le (h.fresh u hu) later

theorem mono (h : Attended s isOpen) (sub : ∀ k, isOpen k → isOpen' k) : Attended s isOpen' :=
  ⟨h.numbers, fun a ha k waits => sub k (h.waiting a ha k waits), h.apart, h.pausing, h.keys,
    h.fresh⟩

/-- Something is put on the agenda. -/
theorem later (h : Attended s isOpen) (pause : ℕ) (wake : Wake) :
    Attended (s.later pause wake) isOpen := by
  refine ⟨h.numbers, h.waiting, h.apart, ?_, ?_, ?_⟩
  · intro a ha pauses
    obtain ⟨t, ht, task⟩ := h.pausing a ha pauses
    exact ⟨t, List.mem_cons_of_mem _ ht, task⟩
  · refine List.nodup_cons.2 ⟨fun mem => ?_, h.keys⟩
    obtain ⟨t, ht, key⟩ := List.mem_map.1 mem
    exact Nat.ne_of_lt (h.fresh t ht) key
  · intro t ht
    rcases List.mem_cons.1 ht with rfl | ht
    · exact Nat.lt_succ_self _
    · exact Nat.lt_succ_of_lt (h.fresh t ht)

/-- An entry that no pausing caller needs is taken off the agenda. -/
theorem drop (h : Attended s isOpen) {t : Timer Wake} (mem : t ∈ s.agenda)
    (unneeded : ∀ a ∈ s.callers, a.state = .pausing → t.task ≠ .caller a.number) :
    Attended (s.without t) isOpen := by
  refine ⟨h.numbers, h.waiting, h.apart, ?_, ?_, ?_⟩
  · intro a ha pauses
    obtain ⟨u, hu, task⟩ := h.pausing a ha pauses
    refine ⟨u, List.mem_filter.2 ⟨hu, ?_⟩, task⟩
    have other : u.key ≠ t.key := by
      intro key
      have same : u = t := List.inj_on_of_nodup_map h.keys hu mem key
      exact unneeded a ha pauses (same ▸ task)
    simpa using other
  · exact h.keys.sublist ((List.filter_sublist (l := s.agenda)).map _)
  · exact fun u hu => h.fresh u (List.mem_filter.1 hu).1

/-- A caller is replaced by itself in another state. -/
theorem put (h : Attended s isOpen) (c : Caller)
    (others : ∀ a ∈ s.callers, a.number ≠ c.number → ∀ k, a.state = .waiting k →
      isOpen' k ∧ c.state ≠ .waiting k)
    (waits : ∀ k, c.state = .waiting k → isOpen' k)
    (pauses : c.state = .pausing → ∃ t ∈ s.agenda, t.task = .caller c.number) :
    Attended (s.putCaller c) isOpen' := by
  refine ⟨?_, ?_, ?_, ?_, h.keys, h.fresh⟩
  · rw [numbers_putCaller]
    exact h.numbers
  · intro a ha k state
    rcases mem_putCaller ha with rfl | ⟨mem, other⟩
    · exact waits k state
    · exact (others a mem other k state).1
  · intro a ha b hb k state state'
    rcases mem_putCaller ha with rfl | ⟨mem, other⟩
    · rcases mem_putCaller hb with rfl | ⟨mem', other'⟩
      · rfl
      · exact absurd state (others b mem' other' k state').2
    · rcases mem_putCaller hb with rfl | ⟨mem', other'⟩
      · exact absurd state' (others a mem other k state).2
      · exact h.apart a mem b mem' k state state'
  · intro a ha state
    rcases mem_putCaller ha with rfl | ⟨mem, -⟩
    · exact pauses state
    · exact h.pausing a mem state

/-- A caller makes an attempt, and waits for a call that nobody waits for yet. -/
theorem next (h : Attended s isOpen) (c : Caller) {k : ℕ} (fresh : ¬isOpen k) :
    Attended (s.putCaller (c.next k)) fun i => isOpen i ∨ i = k := by
  refine h.put _ ?_ ?_ ?_
  · intro a ha _ i state
    have waited := h.waiting a ha i state
    refine ⟨.inl waited, fun same => ?_⟩
    cases same
    exact fresh waited
  · intro i state
    cases state
    exact .inr rfl
  · intro state
    cases state

/-- A new caller joins, and does not wait yet. -/
theorem join (h : Attended s isOpen) (c : Caller) (fresh : c.number ∉ s.callers.map Caller.number)
    (done : c.state = .done) : Attended { s with callers := s.callers ++ [c] } isOpen := by
  have old : ∀ a ∈ s.callers ++ [c], a.state ≠ .done → a ∈ s.callers := by
    intro a ha busy
    rcases List.mem_append.1 ha with ha | ha
    · exact ha
    · rw [List.mem_singleton.1 ha] at busy
      exact absurd done busy
  refine ⟨?_, ?_, ?_, ?_, h.keys, h.fresh⟩
  · rw [List.map_append, List.nodup_append]
    refine ⟨h.numbers, List.nodup_singleton _, fun a ha b hb => ?_⟩
    rw [List.mem_singleton.1 hb]
    rintro rfl
    exact fresh ha
  · intro a ha k waits
    exact h.waiting a (old a ha (by simp [waits])) k waits
  · intro a ha b hb k waits waits'
    exact h.apart a (old a ha (by simp [waits])) b (old b hb (by simp [waits'])) k waits waits'
  · intro a ha pauses
    exact h.pausing a (old a ha (by simp [pauses])) pauses

/-- A caller no longer listens. -/
theorem forget (h : Attended s isOpen) (number : ℕ) : Attended (s.forget number) isOpen := by
  set deaf : Caller → Caller := fun b =>
    if b.number = number then { b with listening := false } else b
  -- number and state of each caller are the same
  have kept : ∀ b, (deaf b).number = b.number ∧ (deaf b).state = b.state := by
    intro b
    simp only [deaf]
    split <;> exact ⟨rfl, rfl⟩
  have old : ∀ a ∈ (s.forget number).callers, ∃ b ∈ s.callers, deaf b = a :=
    fun a ha => List.mem_map.1 ha
  refine ⟨?_, ?_, ?_, ?_, h.keys, h.fresh⟩
  · have numbers : (s.forget number).callers.map Caller.number = s.callers.map Caller.number := by
      rw [Station.forget, List.map_map]
      exact List.map_congr_left fun b _ => (kept b).1
    rw [numbers]
    exact h.numbers
  · intro a ha k waits
    obtain ⟨b, hb, rfl⟩ := old a ha
    rw [(kept b).2] at waits
    exact h.waiting b hb k waits
  · intro a ha a' ha' k waits waits'
    obtain ⟨b, hb, rfl⟩ := old a ha
    obtain ⟨b', hb', rfl⟩ := old a' ha'
    rw [(kept b).2] at waits
    rw [(kept b').2] at waits'
    rw [h.apart b hb b' hb' k waits waits']
  · intro a ha pauses
    obtain ⟨b, hb, rfl⟩ := old a ha
    rw [(kept b).2] at pauses
    rw [(kept b).1]
    exact h.pausing b hb pauses

/-- A caller is done. -/
theorem report {c : Caller} {o : Except CallFailure Value} (h : Attended s isOpen)
    (others : ∀ a ∈ s.callers, a.number ≠ c.number → ∀ k, a.state = .waiting k → isOpen' k) :
    Attended (s.report c o) isOpen' := by
  have done : Attended (s.putCaller { c with state := .done }) isOpen' := by
    refine h.put _ (fun a ha other k state => ⟨others a ha other k state, ?_⟩) ?_ ?_ <;> simp
  unfold Station.report
  split
  · exact done.congr rfl rfl (Nat.le_refl _)
  · exact done

/-- Nobody waits any more for a call that has been settled. -/
theorem settled (h : Attended s isOpen) (k : ℕ) (o : Except CallFailure Value) :
    Attended (s.settled k o) fun i => isOpen i ∧ i ≠ k := by
  unfold Station.settled
  split
  · rename_i none
    refine ⟨h.numbers, fun a ha i state => ⟨h.waiting a ha i state, ?_⟩, h.apart, h.pausing, h.keys,
      h.fresh⟩
    rintro rfl
    exact List.find?_eq_none.1 none a ha (by simpa using state)
  · rename_i c found
    have mem : c ∈ s.callers := List.mem_of_find?_eq_some found
    have waits : c.state = .waiting k := by simpa using List.find?_some found
    -- the caller found is the only one who waits for this call
    have others : ∀ a ∈ s.callers, a.number ≠ c.number → ∀ i, a.state = .waiting i →
        isOpen i ∧ i ≠ k := by
      intro a ha other i state
      refine ⟨h.waiting a ha i state, ?_⟩
      rintro rfl
      exact other (congrArg Caller.number (h.apart a ha c mem i state waits))
    split
    · exact h.report others
    · split
      · split
        · exact h.report others
        · refine h.put _ (fun a ha other i state => ⟨others a ha other i state, ?_⟩) ?_ ?_ <;> simp
        · rename_i ms _
          have woken := h.later ms (.caller c.number)
          refine woken.put { c with state := .pausing }
            (fun a ha other i state => ⟨others a ha other i state, ?_⟩) ?_ ?_
          · simp
          · simp
          · exact fun _ => ⟨_, List.mem_cons_self, rfl⟩
      · exact h.report others

/-- An effect is taken in. -/
theorem absorb (h : Attended s isOpen) (e : Effect) :
    Attended (s.absorb e) fun i => isOpen i ∧ ∀ o, e ≠ .settled i o := by
  cases e with
  | settled k o =>
    refine (h.settled k o).mono fun i hi => ⟨hi.1, fun o' same => ?_⟩
    cases same
    exact hi.2 rfl
  | entered c handler request =>
    have kept : Attended (s.entered handler request) isOpen := by
      have noted : Attended ({ s with tally := s.tally.enter handler.action }.note
          (.entered handler request)) isOpen :=
        ⟨h.numbers, h.waiting, h.apart, h.pausing, h.keys, h.fresh⟩
      unfold Station.entered
      simp only
      split
      · exact ⟨h.numbers, h.waiting, h.apart, h.pausing, h.keys, h.fresh⟩
      · exact noted.later ..
    exact kept.mono fun i hi => ⟨hi, fun o same => by cases same⟩
  | _ =>
    refine ⟨h.numbers, fun a ha i state => ⟨h.waiting a ha i state, ?_⟩, h.apart, h.pausing, h.keys,
      h.fresh⟩
    intro o same
    cases same

theorem foldl : ∀ (es : List Effect) {s : Station} {isOpen : ℕ → Prop}, Attended s isOpen →
    Attended (es.foldl Station.absorb s) fun i => isOpen i ∧ ∀ o, Effect.settled i o ∉ es
  | [], _, _, h => h.mono fun _ hi => ⟨hi, fun _ => List.not_mem_nil⟩
  | e :: es, s, isOpen, h => by
    refine (foldl es (h.absorb e)).mono fun i hi => ⟨hi.1.1, fun o mem => ?_⟩
    rcases List.mem_cons.1 mem with same | mem
    · exact hi.1.2 o same.symm
    · exact hi.2 o mem

end Attended

end Station

end ChargeLink

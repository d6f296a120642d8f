import ChargeLink.Proofs.Session.Retries

/-!
# How often a request is sent

Whoever wants a request of a transaction sent again makes one attempt after the
other. The next attempt comes when the pause after a passing failure is over, at
that moment, and there is no other reason for one.

* `Casebook.Sound.step`: the records of callers stay in order, whatever happens to the station.
* `Casebook.Reachable.attempts_paced`: how many attempts a caller makes, when, and what it is told.
-/

namespace ChargeLink

/-- An operation keeps the settings of the session, and issues as many tickets as it is asked for
sends. -/
theorem Station.Follows.operate {s : Station} {m : Diary} {d : Chronicle} (h : s.Follows m)
    (op : Chronicle.Operation (m.at s.timers s.now) d) :
    d.session.config = s.session.config ∧ s.timers.nextKey ≤ d.timers.nextKey ∧
      m.asked.length = s.session.issued ∧ d.asked.length = d.session.issued := by
  have grows : ∀ {e}, Relation.ReflTransGen Chronicle.Inner (m.at s.timers s.now) e →
      Grows (m.at s.timers s.now) e := by
    intro e inner
    induction inner with
    | refl => exact .refl _
    | tail _ step ih => exact ih.trans (.smalls step.2)
  refine ⟨?_, (op.kept rfl).2.2, ?_, ?_⟩
  · rw [(grows (op.inner rfl).1).config, ← h.session]
    rfl
  · rw [← h.session]
    exact (Accounts.of_reachable h.reachable.desk).asked
  · exact (Accounts.of_reachable (h.reachable.operate rfl op).1.desk).asked

/-- A send takes the next ticket. -/
theorem Station.Follows.send {s : Station} {m : Diary} (h : s.Follows m) (message : Message)
    (v : Value) : (s.turn.send message v).2.session.config = s.session.config ∧
      (s.turn.send message v).2.session.issued = s.session.issued + 1 ∧
      s.timers.nextKey ≤ (s.turn.send message v).2.timers.nextKey := by
  obtain ⟨config, keys, before, after⟩ := h.operate (.send message v)
  rw [h.turn]
  refine ⟨config, after.symm.trans ?_, keys⟩
  rw [← before]
  exact List.length_append

/-- That a handler is entered is noted, and no caller notices. -/
theorem Station.entered_shows (s : Station) (handler : Handler) (request : Value) :
    (s.entered handler request).callers = s.callers ∧
      (s.entered handler request).notes = s.notes ++ [.entered handler request] := by
  rw [Station.entered]
  split <;> exact ⟨rfl, rfl⟩

namespace Casebook

variable {c d : Casebook} {a x : Caller} {p : Try}

namespace Goes

theorem attempt_pos (h : c.Goes a) : 0 < a.attempt := by
  obtain ⟨before, p, same, -⟩ := h.latest
  rw [← h.count, same, List.length_append]
  exact Nat.succ_pos _

/-- Who pauses wants another attempt. -/
theorem retrying_of_pausing (h : c.Goes a) (pauses : a.state = .pausing) : a.retrying = true := by
  obtain ⟨before, p, -, latest⟩ := h.latest
  simp only [Latest, pauses] at latest
  obtain ⟨-, -, -, -, room, -⟩ := latest
  by_contra once
  rw [limit, if_neg once] at room
  exact Nat.not_lt.2 h.attempt_pos room

/-- Whether the caller listens does not matter. -/
theorem deaf (h : c.Goes a) : c.Goes { a with listening := false } := by
  refine ⟨h.retrying, h.count, h.sends, h.most, h.paced, ?_, h.told⟩
  obtain ⟨before, p, same, latest⟩ := h.latest
  refine ⟨before, p, same, ?_⟩
  unfold Latest at latest ⊢
  cases state : a.state with
  | waiting k | pausing =>
    simp only [state] at latest ⊢
    exact latest
  | done =>
    simp only [state] at latest ⊢
    obtain ⟨e, ended, undefined | ⟨last, -⟩⟩ := latest
    · exact ⟨e, ended, .inl undefined⟩
    · exact ⟨e, ended, .inr ⟨last, fun listens => by cases listens⟩⟩

end Goes

namespace Sound

/-! ## Taking in effects -/

/-- A handler is entered; its end may be put on the agenda. -/
theorem entered (h : c.Sound) (call : InboundCall) (handler : Handler) (request : Value) :
    (c.absorb (.entered call handler request)).Sound := by
  set s := c.station.entered handler request with hs
  -- what is put on the agenda is for no caller, and does not come before now
  have agenda : ∀ t ∈ s.agenda, t ∈ c.station.agenda ∨
      c.station.now ≤ t.deadline ∧ ∀ n, t.task ≠ .caller n := by
    intro t ht
    rw [hs, Station.entered] at ht
    split at ht
    · exact .inl ht
    · rcases List.mem_cons.1 ht with rfl | old
      · exact .inr ⟨Nat.le_add_right .., fun n => by simp⟩
      · exact .inl old
  have takes := Station.Takes.entered c.station handler request
  obtain ⟨callers, notes⟩ := Station.entered_shows c.station handler request
  show (c.beside s).Sound
  refine h.frame callers ((h.attended.absorb (.entered call handler request)).mono fun _ hk => hk.1)
    (congrArg Session.issued takes.session) (congrArg Session.config takes.session) ?_ ?_ ?_
  · intro t ht
    rw [takes.now]
    rcases agenda t ht with old | ⟨later, -⟩
    · exact h.punctual t old
    · exact later
  · exact fun t ht n task => (agenda t ht).resolve_right fun fresh => fresh.2 n task
  · intro n o
    rw [notes]
    simp

theorem absorb (h : c.Sound) (e : Effect) : (c.absorb e).Sound := by
  have noted : ∀ n : Note, (∀ k o, n ≠ .reported k o) → (c.beside (c.station.note n)).Sound := by
    intro n other
    refine h.frame rfl (h.attended.congr rfl rfl (Nat.le_refl _)) rfl rfl h.punctual
      (fun t ht _ _ => ht) fun k o => ?_
    simp [Station.note, (other k o).symm]
  cases e with
  | settled k o => exact h.settled k o
  | entered call handler request => exact h.entered call handler request
  | sent | published | dispatched => exact noted _ (by simp)
  | accepted | started | called | returned => exact h

theorem foldl : ∀ (es : List Effect) {c : Casebook}, c.Sound → (es.foldl Casebook.absorb c).Sound
  | [], _, h => h
  | e :: es, _, h => foldl es (h.absorb e)

/-- The session has done something that is not a send. -/
theorem adopt (h : c.Sound) {t : Turn} (issued : t.session.issued = c.station.session.issued)
    (config : t.session.config = c.station.session.config)
    (keys : c.station.timers.nextKey ≤ t.timers.nextKey) : (c.adopt t).Sound :=
  foldl _ (h.frame rfl (h.attended.congr rfl rfl keys) issued config h.punctual
    (fun _ ht _ _ => ht) fun _ _ => Iff.rfl)

/-! ## Attempts -/

/-- Nobody waits for the ticket that comes next. -/
theorem issued_fresh (h : c.Sound) : ¬c.Unsettled c.station.session.issued := by
  rintro ⟨n, p, mem, ticket, -⟩
  exact Nat.ne_of_lt (h.ordered.fresh n _ (List.mem_map_of_mem mem)) ticket

/-- A caller makes its next attempt. Callers and agenda may have changed before, for this caller
only. -/
theorem attempt (h : c.Sound) {m : Diary} (follows : c.station.Follows m) (x : Caller)
    (callers : List Caller) (agenda : List (Timer Wake)) (retry : ℕ → Bool)
    (swap : ∀ a, a ∈ (Station.putCaller { c.station with callers, agenda }
      (x.next c.station.session.issued)).callers ↔
        a = x.next c.station.session.issued ∨ a ∈ c.station.callers ∧ a.number ≠ x.number)
    (attended : (Station.putCaller { c.station with callers, agenda }
      (x.next c.station.session.issued)).Attended fun k =>
        c.Unsettled k ∨ k = c.station.session.issued)
    (old : ∀ t ∈ agenda, t ∈ c.station.agenda ∧ t.task ≠ .caller x.number)
    (others : ∀ n ≠ x.number, retry n = c.retry n)
    (again : x.retrying = (retry x.number && x.message.transactional x.request))
    (untold : ∀ o, Note.reported x.number o ∉ c.station.notes)
    (count : (c.tries x.number).length = x.attempt)
    (sends : ∀ p ∈ c.tries x.number, p.message = x.message ∧ p.request = x.request)
    (room : x.attempt < c.limit x) (paced : c.backoff.Paced (c.tries x.number))
    (last : ∀ before p, c.tries x.number = before ++ [p] → ∃ e ms, p.ending = some e ∧ e.Passing ∧
      c.backoff.pauseAfter x.attempt = some ms ∧ c.station.now = e.time + ms) :
    (Casebook.attempt ⟨{ c.station with callers, agenda }, retry, c.tries⟩ x).Sound := by
  obtain ⟨config, issued, keys⟩ := follows.send x.message x.request
  set k := c.station.session.issued with hk
  set new : Try := ⟨x.message, x.request, k, c.station.now, none⟩ with hnew
  set tries := Function.update c.tries x.number (c.tries x.number ++ [new]) with htries
  have own : tries x.number = c.tries x.number ++ [new] := Function.update_self ..
  have apart : ∀ n ≠ x.number, tries n = c.tries n := fun n other => Function.update_of_ne other ..
  set t := (c.station.turn.send x.message x.request).2 with ht
  -- the station in which the effects of the send are taken in
  set s : Station := { Station.putCaller { c.station with callers, agenda } (x.next k) with
    session := t.session, timers := t.timers } with hs
  set d : Casebook := ⟨s, retry, tries⟩ with hd
  have backoff : d.backoff = c.backoff := congrArg SessionConfig.retry config
  have kept : d.station.Attended fun i => c.Unsettled i ∨ i = k := attended.congr rfl rfl keys
  have sound : d.Sound := by
    refine h.change d (x.next k) swap (fun n other => ⟨others n other, apart n other⟩)
      (kept.mono ?_) ?_ backoff (fun t ht => h.punctual t (old t ht).1)
      (fun t ht _ _ _ => (old t ht).1) (fun t ht task => absurd task (old t ht).2)
      (fun t ht _ _ task => absurd task (old t ht).2) (fun n _ o => Iff.rfl)
      ⟨again, ?_, ?_, ?_, ?_, ⟨_, _, own, rfl, rfl⟩, fun o told => absurd told (untold o)⟩
    · -- who waited still does
      rintro i (⟨n, p, mem, rfl, going⟩ | rfl)
      · refine ⟨n, p, ?_, rfl, going⟩
        show p ∈ tries n
        by_cases same : n = x.number
        · subst same
          rw [own]
          exact List.mem_append_left _ mem
        · rwa [apart n same]
      · refine ⟨x.number, new, ?_, rfl, rfl⟩
        show new ∈ tries x.number
        rw [own]
        exact List.mem_concat_self
    · show Ordered tries t.session.issued
      rw [issued]
      exact h.ordered.submit x.number rfl
    · show (tries x.number).length = x.attempt + 1
      rw [own, List.length_append, count, List.length_singleton]
    · show ∀ p ∈ tries x.number, _
      rw [own]
      refine List.forall_mem_append.2 ⟨sends, fun p mem => ?_⟩
      rw [List.mem_singleton.1 mem]
      exact ⟨rfl, rfl⟩
    · rw [limit, backoff]
      exact room
    · show d.backoff.Paced (tries x.number)
      rw [backoff, own]
      refine paced.concat fun before p same => ?_
      rw [count]
      exact last before p same
  exact foldl t.effects sound

/-- A new caller makes its first attempt. -/
theorem issue (h : c.Sound) {m : Diary} (follows : c.station.Follows m) {number : ℕ}
    (message : Message) (v : Value) (retry : Bool)
    (fresh : number ∉ c.station.callers.map Caller.number) :
    (c.issue number message v retry).Sound := by
  set x : Caller := ⟨number, message, v, retry && message.transactional v, 0, .done, true⟩ with hx
  have none : c.tries number = [] := h.unknown number fresh
  refine h.attempt follows x (c.station.callers ++ [x]) c.station.agenda
    (Function.update c.retry number retry) (fun a => ?_)
    ((h.attended.join x fresh rfl).next x h.issued_fresh) (fun t ht => ⟨ht, fun task => ?_⟩)
    (fun n other => Function.update_of_ne other ..) ?_ (fun o told => fresh (h.noted _ _ told))
    ?_ ?_ ?_ ?_ ?_
  · set k := c.station.session.issued
    have put : ({ c.station with callers := c.station.callers ++ [x] } : Station).putCaller
        (x.next k) = { c.station with callers := c.station.callers ++ [x.next k] } :=
      Station.putCaller_last fresh rfl
    show a ∈ (Station.putCaller { c.station with callers := c.station.callers ++ [x] }
      (x.next k)).callers ↔ _
    rw [put]
    have others : ∀ a ∈ c.station.callers, a.number ≠ number := by
      rintro a ha rfl
      exact fresh (List.mem_map_of_mem ha)
    simp only [List.mem_append, List.mem_singleton]
    constructor
    · rintro (old | rfl)
      · exact .inr ⟨old, others a old⟩
      · exact .inl rfl
    · rintro (rfl | ⟨old, -⟩)
      · exact .inr rfl
      · exact .inl old
  · obtain ⟨a, ha, rfl, -⟩ := h.woken t ht _ task
    exact fresh (List.mem_map_of_mem ha)
  · show x.retrying = (Function.update c.retry number retry number && _)
    rw [Function.update_self]
  · show (c.tries number).length = 0
    rw [none, List.length_nil]
  · show ∀ p ∈ c.tries number, _
    rw [none]
    simp
  · show 0 < if x.retrying = true then c.backoff.attempts else 1
    split
    · exact Nat.lt_of_lt_of_le Nat.zero_lt_one (Nat.le_max_right ..)
    · exact Nat.zero_lt_one
  · show c.backoff.Paced (c.tries number)
    rw [none]
    exact .nil _
  · intro before p same
    rw [show c.tries x.number = [] from none] at same
    cases before <;> cases same

/-- The pause of a caller is over, and it makes its next attempt. -/
theorem wake (h : c.Sound) {m : Diary} (follows : c.station.Follows m) {t : Timer Wake}
    (mem : t ∈ c.station.agenda) (due : t.deadline ≤ c.station.now) (hx : x ∈ c.station.callers)
    (task : t.task = .caller x.number) :
    ((c.beside (c.station.without t)).attempt x).Sound := by
  have goes := h.goes x hx
  have pauses : x.state = .pausing := by
    obtain ⟨a, ha, number, state⟩ := h.woken t mem _ task
    rwa [List.inj_on_of_nodup_map h.attended.numbers ha hx number] at state
  obtain ⟨before, p, same, latest⟩ := goes.latest
  simp only [Latest, pauses] at latest
  obtain ⟨e, ms, ended, passing, room, pause, woken⟩ := latest
  have now : c.station.now = e.time + ms :=
    (Nat.le_antisymm (h.punctual t mem) due).trans (woken t mem task)
  have attended := (h.attended.next x h.issued_fresh).drop mem fun a ha pauses woken => by
    rcases Station.mem_putCaller ha with rfl | ⟨-, other⟩
    · cases pauses
    · rw [task] at woken
      exact other (Wake.caller.inj woken).symm
  refine h.attempt follows x c.station.callers _ c.retry (fun a => Station.mem_putCaller_iff hx rfl)
    attended (fun u hu => ?_) (fun _ _ => rfl) goes.retrying (fun o told => ?_) goes.count
    goes.sends room goes.paced fun before' p' same' => ?_
  · obtain ⟨old, other⟩ := List.mem_filter.1 hu
    refine ⟨old, fun task' => ?_⟩
    rw [h.once u old t mem x.number task' task] at other
    simp at other
  · have done := (goes.told o told).1
    rw [pauses] at done
    cases done
  · cases List.singleton_inj.1 (List.append_inj' (same.symm.trans same') rfl).2
    exact ⟨e, ms, ended, passing, pause, now⟩

/-! ## What happens to the station -/

/-- Something changes that concerns neither session, callers nor agenda. -/
theorem aside (h : c.Sound) {s : Station} (session : s.session = c.station.session)
    (callers : s.callers = c.station.callers) (agenda : s.agenda = c.station.agenda)
    (notes : s.notes = c.station.notes) (keys : c.station.timers.nextKey ≤ s.timers.nextKey)
    (punctual : ∀ t ∈ c.station.agenda, s.now ≤ t.deadline) : (c.beside s).Sound := by
  refine h.frame callers (h.attended.congr callers agenda keys) (congrArg Session.issued session)
    (congrArg Session.config session) ?_ ?_ fun n o => by rw [notes]
  · rwa [agenda]
  · rw [agenda]
    exact fun _ ht _ _ => ht

/-- Time passes until something is due. -/
theorem wait (h : c.Sound) {time : ℕ} (first : ∀ t ∈ c.station.agenda, time ≤ t.deadline) :
    (c.beside { c.station with now := max c.station.now time }).Sound :=
  h.aside rfl rfl rfl rfl (Nat.le_refl _) fun t ht => Nat.max_le.2 ⟨h.punctual t ht, first t ht⟩

/-- The session does something that is not a send. -/
theorem act (h : c.Sound) (reachable : c.station.Reachable) (alive : c.station.gone = false)
    {f : Turn → Turn} (op : ∀ e : Chronicle, ∃ d, Chronicle.Operation e d ∧ d.turn = f e.turn ∧
      d.asked = e.asked) : (c.act f).Sound := by
  obtain ⟨m, follows⟩ := reachable.follows alive
  obtain ⟨d, op, turn, asked⟩ := op (m.at c.station.timers c.station.now)
  obtain ⟨config, keys, before, after⟩ := follows.operate op
  rw [← follows.turn] at turn
  rw [Casebook.act, ← turn]
  refine h.adopt ?_ config keys
  rw [show d.asked = m.asked from asked] at after
  exact after.symm.trans before

/-- A handler ends. -/
theorem finish (h : c.Sound) (answer : Answer) : (c.act fun t => t.finish answer).Sound := by
  obtain ⟨session, timers⟩ := Station.Stopped.finish c.station.turn answer
  refine h.adopt ?_ ?_ ?_
  · rw [session]
    rfl
  · rw [session]
    rfl
  · rw [timers]
    exact Nat.le_refl _

/-- A timer of the session comes. -/
theorem expiry (h : c.Sound) {m : Diary} (follows : c.station.Follows m) {t : Timer Expiry}
    (armed : t ∈ c.station.timers.armed) (due : t.deadline ≤ c.station.now) :
    ((c.beside { c.station with timers := c.station.timers.abort t.key }).act
      fun turn => turn.expire t.task.call).Sound := by
  have mine : t ∈ c.station.timers.ofSession m.session.number := by
    simpa [Supervisor.ofSession, armed, follows.session] using follows.own t armed
  obtain ⟨config, keys, before, after⟩ := follows.operate (.expire t mine due)
  have turn : ((m.at c.station.timers c.station.now).expire t).turn =
      ({ c.station with timers := c.station.timers.abort t.key } : Station).turn.expire
        t.task.call := by
    simp [Chronicle.expire, Diary.at, Station.turn, follows.session]
  have aborted : (c.beside { c.station with timers := c.station.timers.abort t.key }).Sound :=
    h.aside rfl rfl rfl rfl (Nat.le_refl _) h.punctual
  show (Casebook.adopt _ (Turn.expire (Station.turn { c.station with
    timers := c.station.timers.abort t.key }) t.task.call)).Sound
  rw [← turn]
  exact aborted.adopt (after.symm.trans before) config keys

/-- Somebody who waits is told that the session is no more. -/
theorem abandon (h : c.Sound) (mem : x ∈ c.station.callers) {k : ℕ} (waits : x.state = .waiting k) :
    (c.abandon x).Sound := by
  have told := h.conclude mem waits (.error .closing) fun _ passing => by
    rcases passing.1 with same | same <;> cases same
  rw [Casebook.abandon, waits]
  exact told

/-- All of these callers are told so, one after the other. -/
theorem foldl_abandon : ∀ (l : List Caller) {c : Casebook}, c.Sound →
    (∀ x ∈ l, x ∈ c.station.callers ∧ ∃ k, x.state = .waiting k) → (l.map Caller.number).Nodup →
    (l.foldl Casebook.abandon c).Sound ∧ ∀ a ∈ (l.foldl Casebook.abandon c).station.callers,
      a.state = .done ∨ a ∈ c.station.callers ∧ a ∉ l
  | [], _, h, _, _ => ⟨h, fun a ha => .inr ⟨ha, List.not_mem_nil⟩⟩
  | x :: l, c, h, waiting, nodup => by
    obtain ⟨mem, k, waits⟩ := waiting x List.mem_cons_self
    obtain ⟨other, nodup⟩ := List.nodup_cons.1 nodup
    have callers : ∀ a, a ∈ (c.abandon x).station.callers ↔ a = { x with state := .done } ∨
        a ∈ c.station.callers ∧ a.number ≠ x.number := fun a => Station.mem_callers_report mem _
    obtain ⟨sound, rest⟩ := foldl_abandon l (h.abandon mem waits) (fun y hy => by
      obtain ⟨mem, waits⟩ := waiting y (List.mem_cons_of_mem _ hy)
      refine ⟨(callers y).2 (.inr ⟨mem, fun same => other ?_⟩), waits⟩
      exact same ▸ List.mem_map_of_mem hy) nodup
    refine ⟨sound, fun a ha => ?_⟩
    rcases rest a ha with done | ⟨before, absent⟩
    · exact .inl done
    · rcases (callers a).1 before with rfl | ⟨old, apart⟩
      · exact .inl rfl
      · refine .inr ⟨old, fun among => ?_⟩
        rcases List.mem_cons.1 among with rfl | among
        · exact apart rfl
        · exact absent among

/-- The session is no more, and all callers are done. -/
theorem vanish (h : c.Sound) (abandoned : c.station.isAbandoned = true) :
    c.vanish.Sound ∧ ∀ a ∈ c.vanish.station.callers, a.state = .done := by
  simp only [Station.isAbandoned, Bool.and_eq_true, Bool.not_eq_true', Station.retries,
    List.any_eq_false, bne_iff_ne, not_and, not_not] at abandoned
  have gone : (c.beside { c.station with gone := true }).Sound :=
    h.aside rfl rfl rfl rfl (Nat.le_refl _) h.punctual
  obtain ⟨sound, rest⟩ := foldl_abandon (c.station.callers.filter fun x => x.state != .done) gone
    (fun x hx => by
      obtain ⟨mem, busy⟩ := List.mem_filter.1 hx
      refine ⟨mem, ?_⟩
      cases state : x.state with
      | waiting k => exact ⟨k, rfl⟩
      | pausing =>
        -- who pauses would keep the session
        have done := abandoned.1.1.2 x mem ((h.goes x mem).retrying_of_pausing state)
        rw [state] at done
        cases done
      | done => simp [state] at busy)
    (h.attended.numbers.sublist ((List.filter_sublist (l := c.station.callers)).map _))
  refine ⟨sound, fun a ha => ?_⟩
  rcases rest a ha with done | ⟨mem, absent⟩
  · exact done
  · by_contra busy
    exact absent (List.mem_filter.2 ⟨mem, by simpa using busy⟩)

/-- A caller no longer listens. -/
theorem forget (h : c.Sound) (number : ℕ) : (c.beside (c.station.forget number)).Sound := by
  have old : ∀ a ∈ (c.station.forget number).callers, ∃ b ∈ c.station.callers,
      a = b ∨ a = { b with listening := false } := by
    intro a ha
    obtain ⟨b, hb, rfl⟩ := List.mem_map.1 ha
    refine ⟨b, hb, ?_⟩
    split
    · exact .inr rfl
    · exact .inl rfl
  have kept : ∀ b ∈ c.station.callers, ∃ a ∈ (c.station.forget number).callers,
      a.number = b.number ∧ a.state = b.state := by
    intro b hb
    refine ⟨_, List.mem_map.2 ⟨b, hb, rfl⟩, ?_⟩
    split <;> exact ⟨rfl, rfl⟩
  have known : ∀ n ∈ c.station.callers.map Caller.number,
      n ∈ (c.station.forget number).callers.map Caller.number := by
    intro n mem
    obtain ⟨b, hb, rfl⟩ := List.mem_map.1 mem
    obtain ⟨a, ha, same, -⟩ := kept b hb
    exact List.mem_map.2 ⟨a, ha, same⟩
  refine ⟨h.attended.forget number, h.ordered, fun n absent => h.unknown n fun mem =>
    absent (known n mem), fun n o told => known n (h.noted n o told), h.punctual,
    fun t ht n task => ?_, h.once, fun a ha => ?_⟩
  · obtain ⟨b, hb, rfl, state⟩ := h.woken t ht n task
    obtain ⟨a, ha, same, state'⟩ := kept b hb
    exact ⟨a, ha, same, state'.trans state⟩
  · have goes : c.Goes a := by
      obtain ⟨b, hb, rfl | rfl⟩ := old a ha
      · exact h.goes _ hb
      · exact (h.goes b hb).deaf
    exact goes.frame rfl rfl rfl (fun _ ht _ => ht) fun _ => Iff.rfl

end Sound

/-- Nobody is busy any more when the session is no more. -/
def Deserted (c : Casebook) : Prop :=
  c.station.gone = true → ∀ a ∈ c.station.callers, a.state = .done

/-- If nobody waits, taking in effects concerns no caller. -/
theorem callers_foldl : ∀ (es : List Effect) {s : Station}, (∀ a ∈ s.callers, a.state = .done) →
    (es.foldl Station.absorb s).callers = s.callers
  | [], _, _ => rfl
  | e :: es, s, done => by
    have same : (s.absorb e).callers = s.callers := by
      cases e with
      | settled k o =>
        have none : (s.callers.find? fun a => a.state = .waiting k) = none := by
          refine List.find?_eq_none.2 fun a ha => ?_
          simp [done a ha]
        show (s.settled k o).callers = _
        rw [Station.settled, none]
      | entered call handler request =>
        exact (Station.entered_shows s handler request).1
      | _ => rfl
    rw [List.foldl_cons, callers_foldl es (same ▸ done), same]

theorem Deserted.adopt (h : c.Deserted) (t : Turn) : (c.adopt t).Deserted := by
  intro gone
  rw [adopt_station] at gone ⊢
  rw [Station.gone_adopt] at gone
  have same : (c.station.adopt t).callers = c.station.callers :=
    callers_foldl t.effects (s := { c.station with session := t.session, timers := t.timers })
      (h gone)
  rw [same]
  exact h gone

/-- A caller may make an attempt as long as the session is there. -/
theorem Deserted.attempt (alive : c.station.gone = false) (x : Caller) :
    (c.attempt x).Deserted := by
  intro gone
  rw [attempt_station, Station.attempt_eq, Station.gone_adopt] at gone
  rw [show c.station.gone = true from gone] at alive
  cases alive

namespace Sound

/-- An entry of the agenda comes. -/
theorem fireWake (h : c.Sound) (deserted : c.Deserted) (reachable : c.station.Reachable)
    {t : Timer Wake} (mem : t ∈ c.station.agenda)
    (first : ∀ u ∈ c.station.agenda, t.deadline ≤ u.deadline)
    (first' : ∀ u ∈ c.station.timers.armed, t.deadline ≤ u.deadline) :
    (c.fireWake t).Sound ∧ (c.fireWake t).Deserted := by
  set w := c.beside { c.station with now := max c.station.now t.deadline } with hw
  have waited : w.Sound := h.wait first
  unfold Casebook.fireWake
  cases task : t.task with
  | handler answer =>
    have dropped : (w.beside (w.station.without t)).Sound := by
      refine waited.frame rfl (waited.attended.drop mem fun a _ _ woken => by simp [task] at woken)
        rfl rfl (fun u hu => waited.punctual u (List.mem_filter.1 hu).1)
        (fun u hu _ _ => (List.mem_filter.1 hu).1) fun _ _ => Iff.rfl
    exact ⟨dropped.finish answer, Deserted.adopt (c := w.beside (w.station.without t)) deserted _⟩
  | caller number =>
    obtain ⟨a, ha, number', state⟩ := h.woken t mem number task
    have alive : c.station.gone = false := by
      by_contra gone
      rw [deserted (by simpa using gone) a ha] at state
      cases state
    obtain ⟨m, follows⟩ := reachable.follows alive
    have later : w.station.Follows m := follows.wait (Nat.le_max_left ..) fun u hu =>
      Nat.max_le.2 ⟨follows.punctual u hu, first' u hu⟩
    cases found : c.station.callers.find? fun x => x.number = number with
    | none => exact absurd number' (by simpa using List.find?_eq_none.1 found a ha)
    | some x =>
      have hx : x ∈ c.station.callers := List.mem_of_find?_eq_some found
      obtain rfl : x.number = number := by simpa using List.find?_some found
      simp only [Casebook.beside, Station.without, found]
      exact ⟨waited.wake later mem (Nat.le_max_right ..) hx task,
        Deserted.attempt (c := w.beside (w.station.without t)) alive x⟩

/-- A timer of the session comes. -/
theorem fireExpiry (h : c.Sound) (deserted : c.Deserted) (reachable : c.station.Reachable)
    {t : Timer Expiry} (armed : t ∈ c.station.timers.armed)
    (first : ∀ u ∈ c.station.agenda, t.deadline ≤ u.deadline)
    (first' : ∀ u ∈ c.station.timers.armed, t.deadline ≤ u.deadline) :
    (c.fireExpiry t).Sound ∧ (c.fireExpiry t).Deserted := by
  set w := c.beside { c.station with now := max c.station.now t.deadline } with hw
  have waited : w.Sound := h.wait first
  set b := w.beside { w.station with timers := w.station.timers.abort t.key } with hb
  have aborted : b.Sound := waited.aside rfl rfl rfl rfl (Nat.le_refl _) waited.punctual
  have fired : c.fireExpiry t = if c.station.gone then b else b.act fun u => u.expire t.task.call :=
    rfl
  cases gone : c.station.gone with
  | true =>
    rw [fired, if_pos gone]
    exact ⟨aborted, deserted⟩
  | false =>
    obtain ⟨m, follows⟩ := reachable.follows gone
    have later : w.station.Follows m := follows.wait (Nat.le_max_left ..) fun u hu =>
      Nat.max_le.2 ⟨follows.punctual u hu, first' u hu⟩
    rw [fired, if_neg (by simp [gone])]
    exact ⟨waited.expiry later armed (Nat.le_max_right ..), Deserted.adopt (c := b) deserted _⟩

/-- The station does a piece of its work. -/
theorem work (h : c.Sound) (deserted : c.Deserted) (reachable : c.station.Reachable) {limit : ℕ}
    {w : Station.Work} (next : c.station.work? limit = some w) :
    (c.perform w).Sound ∧ (c.perform w).Deserted := by
  rcases Station.work?_eq_some next with now | ⟨-, deadline, key, timer, -⟩
  · unfold Station.workNow? at now
    split at now
    · cases now
      set b := c.beside { c.station with ready := none }
      have idle : b.Sound := h.aside rfl rfl rfl rfl (Nat.le_refl _) h.punctual
      exact ⟨idle.finish _, Deserted.adopt (c := b) deserted _⟩
    · split at now
      · rename_i abandoned
        cases now
        obtain ⟨sound, done⟩ := h.vanish abandoned
        exact ⟨sound, fun _ => done⟩
      · split at now
        · rename_i serves
          cases now
          simp only [Bool.and_eq_true, Bool.not_eq_true'] at serves
          exact ⟨h.act reachable serves.1 fun e => ⟨_, .serve, rfl, rfl⟩, deserted.adopt _⟩
        · cases now
  · obtain ⟨which, first', first⟩ := Station.timer?_eq_some timer
    rcases which with ⟨t, armed, rfl, rfl⟩ | ⟨t, mem, rfl, rfl⟩
    · exact h.fireExpiry deserted reachable armed first first'
    · exact h.fireWake deserted reachable mem first first'

/-- **The records of callers stay in order**, whatever happens to the station. -/
theorem step (h : c.Sound) (deserted : c.Deserted) (reachable : c.station.Reachable)
    (step : Step c d) : d.Sound ∧ d.Deserted := by
  cases step with
  | issue number m v retry alive fresh =>
    obtain ⟨diary, follows⟩ := reachable.follows alive
    refine ⟨h.issue follows m v retry fresh, ?_⟩
    rw [Casebook.issue]
    refine Deserted.attempt ?_ _
    exact alive
  | receive text alive =>
    exact ⟨h.act reachable alive fun e => ⟨_, .receive text, rfl, rfl⟩, deserted.adopt _⟩
  | unlink alive => exact ⟨h.act reachable alive fun e => ⟨_, .unlink, rfl, rfl⟩, deserted.adopt _⟩
  | closing step alive =>
    exact ⟨h.act reachable alive fun e => ⟨_, .closing step, rfl, rfl⟩, deserted.adopt _⟩
  | takeUp alive => exact ⟨h.act reachable alive fun e => ⟨_, .takeUp, rfl, rfl⟩, deserted.adopt _⟩
  | handle alive => exact ⟨h.act reachable alive fun e => ⟨_, .handle, rfl, rfl⟩, deserted.adopt _⟩
  | forget number =>
    refine ⟨h.forget number, fun gone a ha => ?_⟩
    obtain ⟨b, hb, rfl⟩ := List.mem_map.1 ha
    have done := deserted gone b hb
    split <;> exact done
  | release | retally =>
    exact ⟨h.aside rfl rfl rfl rfl (Nat.le_refl _) h.punctual, deserted⟩
  | work limit next => exact h.work deserted reachable next
  | pass time later idle =>
    obtain ⟨-, -, late⟩ := Station.work?_eq_none idle
    exact ⟨h.aside rfl rfl rfl rfl (Nat.le_refl _) fun t ht => Nat.le_of_lt (late t ht), deserted⟩
  | renumber n later => exact ⟨h.aside rfl rfl rfl rfl later h.punctual, deserted⟩

end Sound

/-- Without callers there is nothing to record. -/
theorem Sound.of_nobody (callers : c.station.callers = []) (agenda : c.station.agenda = [])
    (notes : ∀ n o, Note.reported n o ∉ c.station.notes) (tries : ∀ n, c.tries n = [])
    (issued : c.station.session.issued = 0) : c.Sound where
  attended := by constructor <;> simp [callers, agenda]
  ordered := by constructor <;> simp [tickets, tries, issued]
  unknown n _ := tries n
  noted n o told := absurd told (notes n o)
  punctual := by simp [agenda]
  woken := by simp [agenda]
  once := by simp [agenda]
  goes := by simp [callers]

/-- The records of callers are in order in every run. -/
theorem Reachable.sound (h : c.Reachable) : c.Sound ∧ c.Deserted := by
  induction h with
  | opened =>
    refine ⟨.of_nobody rfl rfl (fun n o told => ?_) (fun _ => rfl) rfl, fun gone => ?_⟩
    · cases List.mem_singleton.1 told
    · cases gone
  | step reachable step ih => exact ih.1.step ih.2 reachable.station step

/-! ## How often, and when -/

/-- The tickets that have been issued are those of the attempts of callers. -/
theorem Sound.issued_iff (h : c.Sound) (k : ℕ) : k < c.station.session.issued ↔
    ∃ b ∈ c.station.callers, k ∈ tickets c.tries b.number := by
  constructor
  · intro lt
    obtain ⟨n, mem⟩ := h.ordered.all k lt
    have known : n ∈ c.station.callers.map Caller.number := by
      by_contra absent
      rw [tickets, h.unknown n absent] at mem
      cases mem
    obtain ⟨b, hb, rfl⟩ := List.mem_map.1 known
    exact ⟨b, hb, mem⟩
  · rintro ⟨b, -, mem⟩
    exact h.ordered.fresh _ k mem

/-- If all pauses are defined, a caller who is done has been told how its latest attempt ended, and
would not have made another one. -/
theorem Goes.concludes (h : c.Goes a) {p : Try} (latest : c.Latest a p) (done : a.state = .done)
    (defined : ∀ k < c.backoff.attempts, 0 < k → c.backoff.delayAfter k ≠ none) :
    ∃ e, p.ending = some e ∧ c.Concludes a e := by
  simp only [Latest, done] at latest
  obtain ⟨e, ended, undefined | concludes⟩ := latest
  · obtain ⟨room, -, pause⟩ := Backoff.next_eq_undefined undefined
    exact absurd (Option.map_eq_none_iff.1 pause) (defined a.attempt room h.attempt_pos)
  · exact ⟨e, ended, concludes⟩

/-- **How often a request is sent, when, and what its caller is told.** Whatever happens to a
station can be recorded. Each ticket that was issued is that of one attempt of one caller: each
attempt is a send of its own, with the request of the caller, and there are no other sends. If the
caller has asked for more than one attempt and its request is one of a transaction, it makes at
least one and at most as many as the settings say, otherwise exactly one. All attempts but the last
have ended; each of them timed out or found the session busy, while the session was open, and the
next one was submitted after exactly the pause of the settings, in milliseconds and rounded up.
Meanwhile the caller waits for the last attempt, or pauses after it until that moment, which has not
passed. Once it is done, it has been told the outcome of the last attempt if it listens, and it is
never told anything else. It is done with a failure that may pass, while the session is open, only
after all attempts. -/
theorem Reachable.attempts_paced (h : c.Reachable) (mem : a ∈ c.station.callers)
    (defined : ∀ k < c.backoff.attempts, 0 < k → c.backoff.delayAfter k ≠ none) :
    (c.station.Reachable ∧ ∀ s, Station.Step c.station s → ∃ d, Step c d ∧ d.station = s) ∧
    (∀ k, k < c.station.session.issued ↔
      ∃ b ∈ c.station.callers, k ∈ tickets c.tries b.number) ∧
    (∀ b ∈ c.station.callers, ∀ k, k ∈ tickets c.tries a.number →
      k ∈ tickets c.tries b.number → a = b) ∧
    (tickets c.tries a.number).Pairwise (· < ·) ∧
    (∀ p ∈ c.tries a.number, p.message = a.message ∧ p.request = a.request) ∧
    a.retrying = (c.retry a.number && a.message.transactional a.request) ∧
    (c.tries a.number).length ≤ (if a.retrying then max c.backoff.maxAttempts 1 else 1) ∧
    (∀ (i : ℕ) (p q : Try), (c.tries a.number)[i]? = some p →
      (c.tries a.number)[i + 1]? = some q →
      ∃ (e : Ending) (ns : ℕ), p.ending = some e ∧
        (e.outcome = .error .timeout ∨ e.outcome = .error .busy) ∧ e.isOpen = true ∧
        c.backoff.delayAfter (i + 1) = some ns ∧ q.time = e.time + (ns + 999999) / 1000000) ∧
    ∃ (before : List Try) (last : Try), c.tries a.number = before ++ [last] ∧
      (∀ p ∈ before, p.ending ≠ none) ∧
      (∀ k, a.state = .waiting k → last.ticket = k ∧ last.ending = none) ∧
      (a.state = .pausing → ∃ (e : Ending) (ns : ℕ), last.ending = some e ∧
        c.backoff.delayAfter (c.tries a.number).length = some ns ∧
        c.station.now ≤ e.time + (ns + 999999) / 1000000 ∧
        ∃ t ∈ c.station.agenda, t.task = .caller a.number ∧
          t.deadline = e.time + (ns + 999999) / 1000000) ∧
      (a.state = .done → ∃ e : Ending, last.ending = some e ∧
        (a.listening = true → Note.reported a.number e.outcome ∈ c.station.notes) ∧
        (a.retrying = true → (e.outcome = .error .timeout ∨ e.outcome = .error .busy) →
          e.isOpen = true → (c.tries a.number).length = max c.backoff.maxAttempts 1)) ∧
      ∀ o, Note.reported a.number o ∈ c.station.notes →
        a.state = .done ∧ ∃ e : Ending, last.ending = some e ∧ e.outcome = o := by
  obtain ⟨sound, -⟩ := h.sound
  have goes := sound.goes a mem
  obtain ⟨before, last, same, latest⟩ := goes.latest
  -- a pause in milliseconds is a delay, rounded up
  have delay : ∀ {k ms}, c.backoff.pauseAfter k = some ms →
      ∃ ns, c.backoff.delayAfter k = some ns ∧ (ns + 999999) / 1000000 = ms :=
    fun pause => Option.map_eq_some_iff.1 pause
  refine ⟨⟨h.station, fun s => exists_step⟩, sound.issued_iff, fun b hb k own other => ?_,
    sound.ordered.ascending _, goes.sends, goes.retrying, goes.count.trans_le goes.most, ?_, before,
    last, same, ?_, ?_, ?_, ?_, ?_⟩
  · exact List.inj_on_of_nodup_map sound.attended.numbers mem hb
      (sound.ordered.apart _ _ k own other)
  · intro i p q here next
    obtain ⟨e, ms, ended, ⟨passing, isOpen⟩, pause, time⟩ := goes.paced i p q here next
    obtain ⟨ns, delayed, rfl⟩ := delay pause
    exact ⟨e, ns, ended, passing, isOpen, delayed, time⟩
  · intro p earlier going
    obtain ⟨e, ended⟩ := goes.ended same p earlier
    rw [going] at ended
    cases ended
  · intro k waits
    simp only [Latest, waits] at latest
    exact latest
  · intro pauses
    simp only [Latest, pauses] at latest
    obtain ⟨e, ms, ended, -, -, pause, woken⟩ := latest
    obtain ⟨ns, delayed, rfl⟩ := delay pause
    obtain ⟨t, ht, task⟩ := sound.attended.pausing a mem pauses
    have deadline := woken t ht task
    have early := sound.punctual t ht
    rw [deadline] at early
    exact ⟨e, ns, ended, goes.count ▸ delayed, early, t, ht, task, deadline⟩
  · intro done
    obtain ⟨e, ended, concludes⟩ := goes.concludes latest done defined
    refine ⟨e, ended, concludes.told, fun again passing isOpen => ?_⟩
    rw [goes.count]
    have most := goes.most
    rw [limit, if_pos again] at most
    exact Nat.le_antisymm most (concludes.last again ⟨passing, isOpen⟩)
  · intro o told
    obtain ⟨done, before', last', e, same', ended, outcome⟩ := goes.told o told
    cases List.singleton_inj.1 (List.append_inj' (same.symm.trans same') rfl).2
    exact ⟨done, e, ended, outcome⟩

/-! ## A run -/

/-- Does the next piece of work up to a time, if there is any. -/
def proceed (c : Casebook) (limit : ℕ) : Casebook :=
  match c.station.work? limit with
  | some w => c.perform w
  | none => c

theorem Reachable.proceed (h : c.Reachable) (limit : ℕ) : (c.proceed limit).Reachable := by
  unfold Casebook.proceed
  split
  · exact h.step (.work limit ‹_›)
  · exact h

/-- One caller waits for an answer. Another one has found the slot taken, and pauses. -/
def busy : Casebook :=
  issue (issue ⟨.ofTurn (.openSession 0 "CP-1" (.empty .v16 .chargePoint)
    ⟨10, .reject, 1, .standard⟩ .json "own" (.create true) 0) .empty, fun _ => false, fun _ => []⟩
    0 V16.heartbeat (.record []) false)
    1 V16.meterValues (.record
      [("connectorId", .int 1), ("transactionId", .int 7), ("meterValue", .list [])]) true

theorem Reachable.busy : busy.Reachable :=
  ((Reachable.opened 0 "CP-1" (.empty .v16 .chargePoint) ⟨10, .reject, 1, .standard⟩ .json "own"
    true 0 .empty).step (.issue 0 _ _ _ rfl List.not_mem_nil)).step
      (.issue 1 _ _ _ rfl (by decide +kernel))

/-- The call that took the slot has timed out, the pause is over, and there is another attempt. -/
def again : Casebook :=
  (busy.proceed 500).proceed 500

theorem Reachable.again : again.Reachable :=
  (busy.proceed 500).proceed 500

/-- The second attempt comes half a second after the first one has failed, and goes on. -/
theorem attempts_paced_again :
    (again.tries 1).map (fun p => (p.ticket, p.time)) = [(1, 0), (2, 500)] ∧
    ∃ p q e ns, again.tries 1 = [p, q] ∧ p.ending = some e ∧ e.isOpen = true ∧
      again.backoff.delayAfter 1 = some ns ∧ q.time = e.time + (ns + 999999) / 1000000 ∧
      q.ending = none := by
  have times : (again.tries 1).map (fun p => (p.ticket, p.time)) = [(1, 0), (2, 500)] := by
    decide +kernel
  have caller : ∃ a ∈ again.station.callers, a.number = 1 ∧ a.state = .waiting 2 := by
    decide +kernel
  obtain ⟨a, mem, number, waits⟩ := caller
  obtain ⟨-, -, -, -, -, -, -, paced, before, last, same, -, waiting, -⟩ :=
    Reachable.again.attempts_paced mem (by decide +kernel)
  rw [number] at paced same
  obtain ⟨p, q, two⟩ := List.length_eq_two.1 ((List.length_map _).symm.trans (congrArg _ times))
  rw [two] at paced same
  obtain ⟨e, ns, ended, -, isOpen, delay, time⟩ := paced 0 p q rfl rfl
  have final : q = last := by simpa using congrArg List.getLast? same
  exact ⟨times, p, q, e, ns, two, ended, isOpen, delay, time, final ▸ (waiting 2 waits).2⟩

end Casebook

end ChargeLink

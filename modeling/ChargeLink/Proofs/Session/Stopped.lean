import ChargeLink.Proofs.Session.Callers
import ChargeLink.Proofs.Session.Pair

/-!
# Stations whose session is over

When the session of a station is closed, whoever waits is told so, and stops.
Who pauses is woken once more: the attempt fails at once, and the caller stops
as well. None of this transmits a text. The worker may still enter the handler
of the one call that it had taken up before, and no other; since nothing else is
put on the agenda, the station's work comes to an end.

* `Station.Stopped.step`: what is stopped stays so, and fades.
* `Station.Stopped.left_perform`: each piece of work leaves less of it.
* `Chronicle.Reachable.close_final`: nothing comes after closing, for a session and for a station.
-/

namespace ChargeLink

/-- What is not worth another attempt gets none. -/
theorem Backoff.next_giveUp (b : Backoff) (attempt : ℕ) : b.next attempt false = .giveUp := by
  simp [Backoff.next]

namespace Station

variable {s t u : Station}

/-- The handlers that were entered, with their requests, among notes. -/
def entries (notes : List Note) : List (Handler × Value) :=
  notes.filterMap fun n => match n with
    | .entered h request => some (h, request)
    | _ => none

/-! ## Taking in effects without texts -/

/-- From `s` to `t` so many handlers were entered, no text was transmitted, and nothing but ends of
handlers was put on the agenda. -/
structure Calm (s t : Station) (entered : ℕ) : Prop where
  notes : ∃ later, t.notes = s.notes ++ later ∧ texts later = [] ∧ (entries later).length = entered
  agenda : ∀ x ∈ t.agenda, ∀ n, x.task = .caller n → x ∈ s.agenda
  busy : t.ready.toList.length + t.agenda.length ≤
    s.ready.toList.length + s.agenda.length + entered

namespace Calm

/-- Nothing was put on the agenda. -/
theorem idle {later : List Note} (notes : t.notes = s.notes ++ later) (texts : texts later = [])
    (entries : entries later = []) (agenda : t.agenda = s.agenda) (ready : t.ready = s.ready) :
    Calm s t 0 := by
  refine ⟨⟨later, notes, texts, by rw [entries]; rfl⟩, fun x hx n _ => agenda ▸ hx, ?_⟩
  rw [agenda, ready]
  exact Nat.le_refl _

theorem refl (s : Station) : Calm s s 0 :=
  idle (List.append_nil _).symm rfl rfl rfl rfl

theorem trans {n m : ℕ} (h : Calm s t n) (h' : Calm t u m) : Calm s u (n + m) := by
  obtain ⟨⟨later, notes, texts, entries⟩, agenda, busy⟩ := h
  obtain ⟨⟨later', notes', texts', entries'⟩, agenda', busy'⟩ := h'
  refine ⟨⟨later ++ later', ?_, ?_, ?_⟩, fun x hx n task => ?_, by omega⟩
  · rw [notes', notes, List.append_assoc]
  · exact List.filterMap_append.trans (by rw [← Station.texts, texts, ← Station.texts, texts']; rfl)
  · rw [← entries, ← entries', Station.entries, List.filterMap_append, List.length_append]
    rfl
  · exact agenda x (agenda' x hx n task) n task

theorem note {n : Note} (text : texts [n] = []) (entry : entries [n] = []) : Calm s (s.note n) 0 :=
  idle rfl text entry rfl rfl

theorem report (s : Station) (c : Caller) (o : Except CallFailure Value) :
    Calm s (s.report c o) 0 := by
  have put : Calm s (s.putCaller { c with state := .done }) 0 :=
    idle (List.append_nil _).symm rfl rfl rfl rfl
  unfold Station.report
  split
  · exact put.trans (note rfl rfl)
  · exact put

theorem foldl_report (o : Except CallFailure Value) : ∀ (callers : List Caller) (s : Station),
    Calm s (callers.foldl (fun s c => s.report c o) s) 0
  | [], s => refl s
  | c :: r, s => (report s c o).trans (foldl_report o r (s.report c o))

/-- A caller of a session that is over makes no further attempt. -/
theorem settled (finished : s.session.Over) (k : ℕ) (o : Except CallFailure Value) :
    Calm s (s.settled k o) 0 := by
  have closed : s.session.isOpen = false := by simp [Session.isOpen, finished.phase]
  unfold Station.settled
  split
  · exact refl s
  · split
    · exact report ..
    · split
      · rw [closed, Bool.and_false, Backoff.next_giveUp]
        exact report ..
      · exact report ..

/-- A handler is entered, and will end. -/
theorem entered (s : Station) (h : Handler) (request : Value) :
    Calm s (s.entered h request) 1 := by
  unfold Station.entered
  simp only
  split
  · refine ⟨⟨_, rfl, rfl, rfl⟩, fun x hx n _ => hx, ?_⟩
    show 1 + s.agenda.length ≤ _
    omega
  · refine ⟨⟨_, rfl, rfl, rfl⟩, fun x hx n task => ?_, ?_⟩
    · rcases List.mem_cons.1 hx with rfl | hx
      · cases task
      · exact hx
    · exact Nat.le_refl _

theorem absorb (finished : s.session.Over) {e : Effect} (time : ℕ)
    (silent : Log.texts [(time, e)] = []) :
    Calm s (s.absorb e) (Log.entries [(time, e)]).length := by
  cases e with
  | sent => cases silent
  | entered => exact entered ..
  | settled => exact settled finished ..
  | published | dispatched => exact note rfl rfl
  | accepted | started | called | returned => exact refl s

theorem foldl (time : ℕ) : ∀ (es : List Effect) {s : Station}, s.session.Over →
    Log.texts (es.map fun e => (time, e)) = [] →
    Calm s (es.foldl Station.absorb s) (Log.entries (es.map fun e => (time, e))).length
  | [], s, _, _ => refl s
  | e :: es, s, finished, silent => by
    have finished' : (s.absorb e).session.Over := by
      rw [(Takes.absorb s e time).session]
      exact finished
    have both : Log.texts [(time, e)] = [] ∧ Log.texts (es.map fun e => (time, e)) = [] := by
      simpa using silent
    have calm := (absorb finished time both.1).trans (foldl time es finished' both.2)
    rwa [← List.length_append, ← Log.view_append] at calm

end Calm

/-! ## What is stopped stays so -/

/-- The session is over, and nobody waits for a call. -/
structure Stopped (s : Station) : Prop where
  finished : s.session.Over
  attended : s.Attended fun _ => False

/-- From `s` to `t`, stopped as before, with this session and these armed timers, no text was
transmitted, and no handler was entered but that of a call that had been taken up. -/
structure Rests (s t : Station) (session : Session) (armed : List (Timer Expiry)) : Prop where
  stopped : t.Stopped
  calm : ∃ n, Calm s t n ∧ n + session.takenUp.toNat ≤ s.session.takenUp.toNat
  session : t.session = session
  armed : t.timers.armed = armed
  gone : t.gone = s.gone

namespace Stopped

/-- A turn without texts that settles whatever was waited for. -/
theorem adopt {isOpen : ℕ → Prop} {w : Turn} (attended : s.Attended isOpen)
    (finished : w.session.Over) (texts : Log.texts (w.effects.map fun e => (w.now, e)) = [])
    (entries : (Log.entries (w.effects.map fun e => (w.now, e))).length + w.session.takenUp.toNat ≤
      s.session.takenUp.toNat)
    (settles : ∀ k, isOpen k → ∃ o, Effect.settled k o ∈ w.effects)
    (keys : s.timers.nextKey ≤ w.timers.nextKey) :
    Rests s (s.adopt w) w.session w.timers.armed := by
  set s' : Station := { s with session := w.session, timers := w.timers } with hs
  have takes := Takes.foldl w.now w.effects s'
  have session : (s.adopt w).session = w.session := takes.session
  have moved : s'.Attended isOpen := attended.congr rfl rfl keys
  have calm := Calm.foldl w.now w.effects (s := s') finished texts
  refine ⟨⟨session ▸ finished, ?_⟩, ⟨_, ⟨calm.notes, calm.agenda, calm.busy⟩, entries⟩, session, ?_,
    takes.gone⟩
  · refine (moved.foldl w.effects).mono fun k hk => ?_
    obtain ⟨o, mem⟩ := settles k hk.1
    exact hk.2 o mem
  · obtain ⟨n, -, timers⟩ := takes.timers
    show ((w.effects.foldl absorb s').timers).armed = _
    rw [timers]

/-- An operation of a session that is over. -/
theorem act {f : Turn → Turn} {d : Chronicle} (h : s.Stopped)
    (op : Chronicle.Operation ⟨s.turn, 0, [], [], []⟩ d) (turn : d.turn = f s.turn) :
    Rests s (s.act f) (f s.turn).session (f s.turn).timers.armed := by
  obtain ⟨inner, -⟩ := op.inner rfl
  have smalls : Smalls ⟨⟨s.turn, 0, [], [], []⟩, none⟩ ⟨d, none⟩ := by
    clear op turn
    induction inner with
    | refl => exact .refl
    | tail _ step ih => exact ih.trans step.2
  obtain ⟨finished, -, texts, ⟨late, entries, bound, -⟩, -⟩ := h.finished.smalls rfl smalls
  obtain ⟨past, -, keys⟩ := op.kept rfl
  -- the effects of the turn are the whole log
  have log : d.log = d.turn.effects.map fun e => (d.turn.now, e) := by
    rw [Chronicle.log, past]
    rfl
  rw [log] at texts entries
  rw [← turn, Station.act, ← turn]
  refine adopt h.attended finished texts ?_ (fun k none => none.elim) keys
  rw [entries]
  exact bound

/-- An attempt fails at once. -/
theorem attempt (finished : s.session.Over) (c : Caller)
    (attended : (s.putCaller (c.next s.session.issued)).Attended fun k => k = s.session.issued) :
    Rests s (s.attempt c) { s.session with issued := s.session.issued + 1 } s.timers.armed := by
  obtain ⟨f, fails⟩ := Session.Over.send_fails (t := s.turn) finished c.message c.request
  rw [attempt_eq, fails]
  obtain ⟨phase, unlinked, slot, queue⟩ := finished
  have failed := adopt (w := { s.turn with
      session := { s.session with issued := s.session.issued + 1 }
      effects := s.turn.effects ++ [.settled s.session.issued (.error f)] }) attended
    ⟨phase, unlinked, slot, queue⟩ (by simp [Station.turn])
    (by simp [Station.turn, putCaller])
    (by rintro k rfl; exact ⟨_, List.mem_append_right _ List.mem_cons_self⟩) (Nat.le_refl _)
  obtain ⟨n, calm, bound⟩ := failed.calm
  exact ⟨failed.stopped, ⟨n, ⟨calm.notes, calm.agenda, calm.busy⟩, bound⟩, failed.session,
    failed.armed, failed.gone⟩

/-- A session that is over has no call that could expire. -/
theorem expire {w : Turn} (finished : w.session.Over) (id : String) : w.expire id = w := by
  have other : w.session.slot.outstandingId ≠ some id := by
    rw [finished.slot]
    simp [PendingTable.empty, PendingTable.outstandingId]
  rw [Turn.expire, Turn.lapse, Turn.settle_of_ne other]
  rfl

/-- The running handler ends, and nothing else changes. -/
theorem finish (w : Turn) (answer : Answer) :
    (w.finish answer).session = { w.session with running := none } ∧
      (w.finish answer).timers = w.timers := by
  cases running : w.session.running with
  | none =>
    rw [Turn.finish_idle running, ← running]
    exact ⟨rfl, rfl⟩
  | some r =>
    rw [Turn.finish_running running]
    exact ⟨rfl, rfl⟩

/-- The worker drops the first call of the inbox, or answers it if it has taken it up. -/
theorem serve {w : Turn} (finished : w.session.Over) (waits : w.canServe = true) :
    w.session.inbox ≠ [] ∧ w.serve.session.inbox = w.session.inbox.tail ∧
      w.serve.timers = w.timers := by
  simp only [Turn.canServe, Bool.and_eq_true, Option.isNone_iff_eq_none, Bool.not_eq_true',
    List.isEmpty_eq_false_iff] at waits
  obtain ⟨idle, inbox⟩ := waits
  refine ⟨inbox, ?_⟩
  obtain ⟨c, rest, calls⟩ := List.exists_cons_of_ne_nil inbox
  cases taken : w.session.takenUp with
  | false =>
    set dropped : Turn := { w with session := { w.session with inbox := rest } }
    have skipped : w.takeUp = dropped := Turn.takeUp_ended idle taken calls finished.not_open
    rw [Turn.serve, skipped, Turn.handle_idle (t := dropped) (.inr (.inl taken)), calls]
    exact ⟨rfl, rfl⟩
  | true =>
    rw [Turn.serve, Turn.takeUp_idle (.inr (.inl taken))]
    cases accepts : w.session.registry.accept c.action c.payload with
    | error fault =>
      rw [Turn.handle_declined idle taken calls accepts, calls]
      exact ⟨rfl, rfl⟩
    | ok r =>
      rw [Turn.handle_entered idle taken calls accepts, calls]
      exact ⟨rfl, rfl⟩

end Stopped

/-! ## Runs of a stopped station -/

/-- From `s` to `t`, stopped as before, no text was transmitted, no handler was entered but that of
a call that had been taken up, and no caller was put on the agenda. -/
structure Fades (s t : Station) : Prop where
  stopped : t.Stopped
  notes : ∃ later, t.notes = s.notes ++ later ∧ texts later = [] ∧
    (entries later).length + t.session.takenUp.toNat ≤ s.session.takenUp.toNat
  agenda : ∀ x ∈ t.agenda, ∀ n, x.task = .caller n → x ∈ s.agenda

namespace Fades

/-- Nothing is noted. -/
theorem silent (stopped : t.Stopped) (notes : t.notes = s.notes)
    (takenUp : t.session.takenUp = s.session.takenUp) (agenda : ∀ x ∈ t.agenda, x ∈ s.agenda) :
    Fades s t := by
  refine ⟨stopped, ⟨[], by rw [notes, List.append_nil], rfl, ?_⟩, fun x hx _ _ => agenda x hx⟩
  rw [takenUp]
  exact Nat.le_of_eq (Nat.zero_add _)

theorem refl (h : s.Stopped) : Fades s s :=
  silent h rfl rfl fun _ hx => hx

theorem trans (h : Fades s t) (h' : Fades t u) : Fades s u := by
  obtain ⟨-, ⟨later, notes, texts, entries⟩, agenda⟩ := h
  obtain ⟨stopped, ⟨later', notes', texts', entries'⟩, agenda'⟩ := h'
  refine ⟨stopped, ⟨later ++ later', ?_, ?_, ?_⟩, fun x hx n task =>
    agenda x (agenda' x hx n task) n task⟩
  · rw [notes', notes, List.append_assoc]
  · exact List.filterMap_append.trans (by rw [← Station.texts, texts, ← Station.texts, texts']; rfl)
  · rw [Station.entries, List.filterMap_append, List.length_append]
    rw [Station.entries] at entries entries'
    omega

theorem of_rests {session : Session} {armed : List (Timer Expiry)} (h : Rests s t session armed) :
    Fades s t := by
  obtain ⟨n, ⟨⟨later, notes, texts, entries⟩, agenda, -⟩, bound⟩ := h.calm
  refine ⟨h.stopped, ⟨later, notes, texts, ?_⟩, agenda⟩
  rw [entries, h.session]
  exact bound

/-- Less may have been on the agenda before. -/
theorem less {s' : Station} (h : Fades s t) (notes : s.notes = s'.notes)
    (session : s.session = s'.session) (agenda : ∀ x ∈ s.agenda, x ∈ s'.agenda) : Fades s' t :=
  ⟨h.stopped, notes ▸ session ▸ h.notes, fun x hx n task => agenda x (h.agenda x hx n task)⟩

end Fades

/-- How much a station has left to do. A call that is answered may leave the end of a handler. -/
def left (s : Station) : ℕ :=
  s.ready.toList.length + (if s.gone then 0 else 1) + 2 * s.session.inbox.length +
    s.session.takenUp.toNat + s.timers.armed.length + s.agenda.length

/-- An operation leaves as much less as its session has fewer calls waiting and timers armed. -/
theorem Rests.left_le {session : Session} {armed : List (Timer Expiry)}
    (h : Rests s t session armed) :
    t.left + 2 * s.session.inbox.length + s.timers.armed.length ≤
      s.left + 2 * session.inbox.length + armed.length := by
  obtain ⟨n, ⟨-, -, busy⟩, bound⟩ := h.calm
  rw [left, left, h.session, h.armed, h.gone]
  omega

/-- A timer that is taken off leaves fewer. -/
theorem length_filter_key {α : Type} {l : List (Timer α)} {t : Timer α} (mem : t ∈ l) :
    (l.filter fun u => u.key != t.key).length < l.length :=
  List.length_filter_lt_length_iff_exists.2 ⟨t, mem, by simp⟩

namespace Stopped

/-- The station with other things that concern neither its session nor its callers. -/
theorem congr (h : s.Stopped) (session : t.session = s.session) (callers : t.callers = s.callers)
    (agenda : t.agenda = s.agenda) (keys : s.timers.nextKey ≤ t.timers.nextKey) : t.Stopped :=
  ⟨session ▸ h.finished, h.attended.congr callers agenda keys⟩

/-- Nobody who still listens is left behind. -/
theorem vanish (h : s.Stopped) (alive : s.gone = false) :
    Fades s s.vanish ∧ s.vanish.left < s.left := by
  have attended : ∀ (callers : List Caller) (s : Station), (s.Attended fun _ => False) →
      (callers.foldl (fun s c => s.report c (.error .closing)) s).Attended fun _ => False := by
    intro callers
    induction callers with
    | nil => exact fun _ h => h
    | cons c r ih => exact fun s h => ih _ (h.report fun a ha _ k state => h.waiting a ha k state)
  have takes := Takes.foldl_report (.error .closing) (s.callers.filter fun c => c.state != .done)
    { s with gone := true }
  have calm := Calm.foldl_report (.error .closing) (s.callers.filter fun c => c.state != .done)
    { s with gone := true }
  have session : s.vanish.session = s.session := takes.session
  obtain ⟨n, -, timers⟩ := takes.timers
  have armed : s.vanish.timers.armed = s.timers.armed := by
    rw [Station.vanish, timers]
  have stopped : s.vanish.Stopped :=
    ⟨session ▸ h.finished, attended _ _ (h.attended.congr rfl rfl (Nat.le_refl _))⟩
  obtain ⟨⟨later, notes, texts, entries⟩, agenda, busy⟩ := calm
  refine ⟨⟨stopped, ⟨later, notes, texts, ?_⟩, agenda⟩, ?_⟩
  · rw [entries, session, Nat.zero_add]
  · change s.vanish.ready.toList.length + s.vanish.agenda.length ≤
      s.ready.toList.length + s.agenda.length + 0 at busy
    rw [left, left, session, armed, show s.vanish.gone = true from takes.gone, alive]
    simp only [if_true, Bool.false_eq_true, if_false]
    omega

/-- A handler ends, and its reply is not transmitted. -/
theorem act_finish (h : s.Stopped) (answer : Answer) :
    Fades s (s.act fun t => t.finish answer) ∧ (s.act fun t => t.finish answer).left ≤ s.left := by
  have rests := h.act (f := fun t => t.finish answer) (.finish answer) rfl
  refine ⟨.of_rests rests, ?_⟩
  obtain ⟨session, timers⟩ := finish s.turn answer
  have less := rests.left_le
  rw [session, timers] at less
  change _ + 2 * s.session.inbox.length + s.timers.armed.length ≤
    _ + 2 * s.session.inbox.length + s.timers.armed.length at less
  omega

/-- A timer of the session comes, and there is no call that could expire. -/
theorem expiry (h : s.Stopped) {t : Timer Expiry} (armed : t ∈ s.timers.armed) :
    Fades s (s.perform (.expiry t)) ∧ (s.perform (.expiry t)).left < s.left := by
  set s' : Station := { s with now := max s.now t.deadline, timers := s.timers.abort t.key } with hs
  have done : s.perform (.expiry t) = s' := by
    rw [Station.perform, fireExpiry]
    simp only
    split
    · rfl
    · rw [Station.act, expire (w := s'.turn) h.finished]
      rfl
  have fewer := length_filter_key armed
  rw [done]
  refine ⟨.silent (h.congr rfl rfl rfl (Nat.le_refl _)) rfl rfl fun _ hx => hx, ?_⟩
  simp only [hs, left, Supervisor.abort]
  omega

/-- An entry of the agenda comes: an attempt fails, or a handler ends without a reply. -/
theorem wake (h : s.Stopped) {t : Timer Wake} (mem : t ∈ s.agenda) (due : t.deadline ≤ s.now) :
    Fades s (s.fireWake t) ∧ (s.fireWake t).left < s.left := by
  have fewer : (s.without t).left < s.left := Nat.add_lt_add_left (length_filter_key mem) _
  have agenda : ∀ x ∈ (s.without t).agenda, x ∈ s.agenda := fun x hx => (List.mem_filter.1 hx).1
  rw [fireWake_of_due due]
  cases task : t.task with
  | handler answer =>
    have dropped := h.attended.drop mem fun a _ _ woken => by simp [task] at woken
    have stopped : (s.without t).Stopped := ⟨h.finished, dropped⟩
    obtain ⟨fades, same⟩ := stopped.act_finish answer
    exact ⟨fades.less rfl rfl agenda, same.trans_lt fewer⟩
  | caller number =>
    cases found : s.callers.find? fun c : Caller => c.number = number with
    | some c =>
      have number' : c.number = number := by simpa using List.find?_some found
      -- the caller does not pause any more
      have dropped := (h.attended.next c (k := s.session.issued) not_false).drop mem
        fun a ha pauses woken => by
          rcases mem_putCaller ha with rfl | ⟨-, other⟩
          · cases pauses
          · rw [task] at woken
            cases woken
            exact other number'.symm
      have rests := attempt (s := s.without t) h.finished c
        (dropped.mono fun k hk => hk.resolve_left not_false)
      simp only [found]
      refine ⟨(Fades.of_rests rests).less rfl rfl agenda, ?_⟩
      have less := rests.left_le
      change _ + 2 * s.session.inbox.length + s.timers.armed.length ≤
        _ + 2 * s.session.inbox.length + s.timers.armed.length at less
      omega
    | none =>
      have dropped := h.attended.drop mem fun a ha _ woken => by
        rw [task] at woken
        cases woken
        exact List.find?_eq_none.1 found a ha (by simp)
      have stopped : (s.without t).Stopped := ⟨h.finished, dropped⟩
      simp only [found]
      exact ⟨(Fades.refl stopped).less rfl rfl agenda, fewer⟩

/-- Each piece of work leaves less of it. -/
theorem perform (h : s.Stopped) {limit : ℕ} {w : Work} (next : s.work? limit = some w) :
    Fades s (s.perform w) ∧ (s.perform w).left < s.left := by
  rcases work?_eq_some next with now | ⟨-, deadline, key, timer, -⟩
  · unfold workNow? at now
    split at now
    · rename_i answer ready
      cases now
      have idle : Stopped { s with ready := none } := h.congr rfl rfl rfl (Nat.le_refl _)
      obtain ⟨fades, same⟩ := idle.act_finish answer
      have one : ({ s with ready := none } : Station).left + 1 = s.left := by
        simp [left, ready]
        omega
      exact ⟨fades.less rfl rfl fun _ hx => hx, same.trans_lt (by omega)⟩
    · split at now
      · rename_i abandoned
        cases now
        have alive : s.gone = false := by
          simp only [isAbandoned, Bool.and_eq_true, Bool.not_eq_true'] at abandoned
          exact abandoned.1.1.1.2
        exact h.vanish alive
      · split at now
        · rename_i serves
          cases now
          simp only [Bool.and_eq_true] at serves
          obtain ⟨some, inbox, timers⟩ := serve (w := s.turn) h.finished serves.2
          have rests := h.act (f := Turn.serve) .serve rfl
          refine ⟨.of_rests rests, ?_⟩
          have less := rests.left_le
          rw [inbox, timers] at less
          have fewer := List.length_tail (l := s.session.inbox)
          have pos := List.length_pos_iff.2 some
          change (s.perform .serve).left + 2 * s.session.inbox.length + s.timers.armed.length ≤
            _ + 2 * s.session.inbox.tail.length + s.timers.armed.length at less
          change 0 < s.session.inbox.length at pos
          omega
        · cases now
  · obtain ⟨which, -⟩ := timer?_eq_some timer
    rcases which with ⟨t, armed, rfl, -⟩ | ⟨t, mem, rfl, -⟩
    · exact h.expiry armed
    · have later : Stopped { s with now := max s.now t.deadline } :=
        h.congr rfl rfl rfl (Nat.le_refl _)
      obtain ⟨fades, fewer⟩ := later.wake mem (Nat.le_max_right ..)
      rw [perform_wake]
      exact ⟨fades.less rfl rfl fun _ hx => hx, fewer⟩

/-- **What is stopped stays so, and fades.** -/
theorem step (h : s.Stopped) (step : Step s t) : Fades s t := by
  have act : ∀ {f : Turn → Turn} {d : Chronicle},
      Chronicle.Operation ⟨s.turn, 0, [], [], []⟩ d → d.turn = f s.turn → Fades s (s.act f) :=
    fun op turn => .of_rests (h.act op turn)
  cases step with
  | issue number m v retry _ fresh =>
    set c : Caller := ⟨number, m, v, retry && m.transactional v, 0, .done, true⟩
    have joined := h.attended.join c fresh rfl
    have waits := joined.next c (k := s.session.issued) not_false
    have failed := attempt (s := { s with callers := s.callers ++ [c] }) h.finished c
      (waits.mono fun k hk => hk.resolve_left not_false)
    exact (Fades.of_rests failed).less rfl rfl fun _ hx => hx
  | receive text => exact act (f := fun t => t.receive text) (.receive text) rfl
  | unlink => exact act .unlink rfl
  | closing step => exact act (f := fun t => t.closing step) (.closing step) rfl
  | takeUp => exact act .takeUp rfl
  | handle => exact act .handle rfl
  | forget number =>
    exact .silent ⟨h.finished, h.attended.forget number⟩ rfl rfl fun _ hx => hx
  | release | retally | pass =>
    exact .silent (h.congr rfl rfl rfl (Nat.le_refl _)) rfl rfl fun _ hx => hx
  | renumber n later => exact .silent (h.congr rfl rfl rfl later) rfl rfl fun _ hx => hx
  | work limit next => exact (h.perform next).1

theorem steps (h : s.Stopped) (steps : Steps s t) : Fades s t := by
  induction steps with
  | refl => exact .refl h
  | tail _ step ih => exact ih.trans (ih.stopped.step step)

end Stopped

/-- The work up to a limit is a run of the station. -/
theorem steps_runFor (limit : ℕ) : ∀ (fuel : ℕ) (s : Station), Steps s (runFor limit fuel s)
  | 0, s => .refl
  | fuel + 1, s => by
    rw [runFor]
    cases next : s.work? limit with
    | none => exact .refl
    | some w => exact .head (.work limit next) (steps_runFor limit fuel (s.perform w))

namespace Stopped

/-- The work of a stopped station comes to an end. -/
theorem work?_runFor (limit : ℕ) : ∀ (fuel : ℕ) {s : Station}, s.Stopped → s.left ≤ fuel →
    (runFor limit fuel s).work? limit = none
  | fuel, s, h, enough => by
    cases next : s.work? limit with
    | none =>
      cases fuel with
      | zero => exact next
      | succ fuel => simp only [runFor, next]
    | some w =>
      obtain ⟨fades, fewer⟩ := h.perform next
      cases fuel with
      | zero => omega
      | succ fuel =>
        simp only [runFor, next]
        exact work?_runFor limit fuel fades.stopped (by omega)

/-- Once the last pause is over, all callers are done. -/
theorem advance (h : s.Stopped) {ms : ℕ}
    (last : ∀ x ∈ s.agenda, ∀ n, x.task = .caller n → x.deadline ≤ s.now + ms) :
    ∀ a ∈ (s.advance ms).callers, a.state = .done := by
  have enough : s.left ≤ s.workBound := by
    have ready : s.ready.toList.length ≤ 1 := Option.length_toList_le
    have gone : (if s.gone = true then 0 else 1) ≤ 1 := by split <;> omega
    have taken : s.session.takenUp.toNat ≤ 1 := Bool.toNat_le _
    simp only [left, workBound, Supervisor.count]
    omega
  intro a ha
  change a ∈ (runFor (s.now + ms) s.workBound s).callers at ha
  obtain ⟨stopped, -, agenda⟩ := h.steps (steps_runFor (s.now + ms) s.workBound s)
  obtain ⟨-, -, late⟩ := work?_eq_none (work?_runFor (s.now + ms) s.workBound h enough)
  cases state : a.state with
  | done => rfl
  | waiting k => exact (stopped.attended.waiting a ha k state).elim
  | pausing =>
    obtain ⟨x, hx, task⟩ := stopped.attended.pausing a ha state
    have := last x (agenda x hx _ task) _ task
    have := late x hx
    omega

end Stopped

/-- When its session is over, every send has its outcome. -/
theorem Follows.settled_of_over {m : Diary} (h : s.Follows m) (finished : s.session.Over) {k : ℕ}
    (asked : k < m.asked.length) : k ∈ m.log.settled := by
  have accounts := Accounts.of_reachable h.reachable.desk
  rw [← h.session] at finished
  have settled := accounts.settled_of_lt finished.slot finished.queue
    (asked.trans_eq accounts.asked)
  have log : (m.at s.timers s.now).log = m.log := List.append_nil _
  rwa [log] at settled

/-- And nobody waits for one any more. -/
theorem Follows.stopped {m : Diary} (h : s.Follows m) (finished : s.session.Over) : s.Stopped :=
  ⟨finished, h.attended.mono fun _ unsettled =>
    unsettled.2 (h.settled_of_over finished unsettled.1)⟩

/-- **A station whose session is closed is stopped.** -/
theorem Reachable.stopped (h : s.Reachable) (alive : s.gone = false)
    (closed : s.session.phase = .closed) : s.Stopped := by
  obtain ⟨m, follows⟩ := h.follows alive
  have finished := follows.reachable.over ((congrArg Session.phase follows.session).trans closed)
  exact follows.stopped (follows.session ▸ finished)

/-- From `s` to `u`, a station whose session is closed transmits nothing, enters no handler but that
of a call that had been taken up, and makes no caller wait: who still pauses will be woken for the
last time. -/
structure Ceased (s u : Station) : Prop where
  phase : u.session.phase = .closed
  notes : ∃ later, u.notes = s.notes ++ later ∧ texts later = [] ∧
    (entries later).length ≤ s.session.takenUp.toNat
  callers : ∀ a ∈ u.callers, a.state = .done ∨ a.state = .pausing ∧
    ∃ t ∈ s.agenda, t ∈ u.agenda ∧ t.task = .caller a.number
  ends : ∀ ms, (∀ t ∈ s.agenda, ∀ n, t.task = .caller n → t.deadline ≤ u.now + ms) →
    ∀ a ∈ (u.advance ms).callers, a.state = .done

theorem Stopped.ceased (h : s.Stopped) (steps : Steps s u) : Ceased s u := by
  obtain ⟨stopped, ⟨later, notes, texts, entries⟩, agenda⟩ := h.steps steps
  refine ⟨stopped.finished.phase, ⟨later, notes, texts, by omega⟩, fun a ha => ?_, ?_⟩
  · cases state : a.state with
    | done => exact .inl rfl
    | waiting k => exact (stopped.attended.waiting a ha k state).elim
    | pausing =>
      obtain ⟨t, ht, task⟩ := stopped.attended.pausing a ha state
      exact .inr ⟨rfl, t, agenda t ht _ task, ht, task⟩
  · exact fun ms last => stopped.advance fun x hx n task => last x (agenda x hx n task) n task

/-- Nothing is left open: every send has its outcome, and nobody waits for one. Who pauses before
another attempt is told when the pause is over. -/
structure Settled (s : Station) : Prop where
  waiting : s.session.waiting = []
  sends : ∃ m, s.Follows m ∧ ∀ k < m.asked.length, k ∈ m.log.settled
  callers : ∀ a ∈ s.callers, a.state = .done ∨ a.state = .pausing
  pauses : ∀ ms, (∀ t ∈ s.agenda, ∀ n, t.task = .caller n → t.deadline ≤ s.now + ms) →
    ∀ a ∈ (s.advance ms).callers, a.state = .done

/-- **With its session closed, a station has settled everything.** -/
theorem Reachable.settled (h : s.Reachable) (alive : s.gone = false)
    (closed : s.session.phase = .closed) : s.Settled := by
  obtain ⟨m, follows⟩ := h.follows alive
  have stopped := h.stopped alive closed
  have finished := stopped.finished
  refine ⟨?_, ⟨m, follows, fun _ asked => follows.settled_of_over finished asked⟩, fun a ha => ?_,
    (stopped.ceased .refl).ends⟩
  · simp [Session.waiting, finished.slot, finished.queue, PendingTable.empty]
  · exact ((stopped.ceased .refl).callers a ha).imp_right And.left

/-! ## A run -/

/-- A station that waits for the answer to one call, and has no room for a second. -/
def taken : Station :=
  issue (.ofTurn (.openSession 0 "CP-1" (.empty .v16 .chargePoint) ⟨10, .reject, 1, .standard⟩ .json
    "own" (.create true) 0) .empty) 0 V16.heartbeat (.record []) false

/-- A second caller has found the slot taken, and pauses before another attempt. -/
def pausing : Station :=
  taken.issue 1 V16.meterValues (.record
    [("connectorId", .int 1), ("transactionId", .int 7), ("meterValue", .list [])]) true

theorem Reachable.pausing : pausing.Reachable :=
  ((Reachable.opened 0 "CP-1" (.empty .v16 .chargePoint) ⟨10, .reject, 1, .standard⟩ .json "own" true 0
    .empty).step (.issue 0 _ _ _ rfl List.not_mem_nil)).step (.issue 1 _ _ _ rfl (by decide))

end Station

/-! ## Closing is final -/

theorem Phase.eq_of_closing_le {p : Phase} (h : Phase.closing ≤ p) :
    p = .closing ∨ p = .closed := by
  cases p with
  | opened => exact absurd h (by decide)
  | closing => exact .inl rfl
  | closed => exact .inr rfl

namespace Chronicle

variable {c d e : Chronicle} {s : Station}

/-- Once it has begun, closing makes the calls fail, if they have not done so yet. -/
theorem abandoned_closing (closing : c.session.phase = .closing) :
    (c.closing .abandon).session.phase = .closing ∧
      (c.closing .abandon).session.abandoned.isSome := by
  cases first : c.session.abandoned with
  | none =>
    rw [closing_abandon closing first]
    exact ⟨closing, rfl⟩
  | some n =>
    rw [Chronicle.closing, Turn.closing, Turn.abandon_idle (by simp [first])]
    exact ⟨closing, first ▸ rfl⟩

/-- Whatever comes between the steps of closing, at their end the session is closed. -/
theorem closed_of_steps (begun : Steps (c.closing .start) d)
    (abandoned : Steps (d.closing .abandon) e) : (e.closing .finish).session.phase = .closed := by
  have start : Phase.closing ≤ (c.closing .start).session.phase := by
    by_cases isOpen : c.session.phase = .opened
    · rw [closing_start isOpen]
      exact Phase.le_refl _
    · rw [Chronicle.closing, Turn.closing, Turn.beginClose_of_not_open isOpen]
      cases phase : c.session.phase <;> first | decide | exact absurd phase isOpen
  have finish : Phase.closing ≤ e.session.phase ∧
      (e.session.phase = .closing → e.session.abandoned.isSome) := by
    rcases Phase.eq_of_closing_le (Phase.le_trans start begun.phase_le) with closing | closed
    · obtain ⟨still, done⟩ := abandoned_closing closing
      obtain ⟨n, done⟩ := Option.isSome_iff_exists.1 done
      refine ⟨still ▸ abandoned.phase_le, fun _ => ?_⟩
      rw [abandoned.abandoned (by rw [still]; decide) done]
      rfl
    · have idle : d.closing .abandon = d := by
        rw [Chronicle.closing, Turn.closing, Turn.abandon_idle (by simp [closed])]
      have ended := (idle ▸ abandoned).phase_le
      rw [closed] at ended
      refine ⟨Phase.le_trans (by decide) ended, fun closing => ?_⟩
      rw [closing] at ended
      exact absurd ended (by decide)
  obtain ⟨ended, done⟩ := finish
  rcases Phase.eq_of_closing_le ended with closing | closed
  · obtain ⟨n, done⟩ := Option.isSome_iff_exists.1 (done closing)
    rw [closing_finish closing done]
    rfl
  · rw [Chronicle.closing, Turn.closing, Turn.endClose_idle (by simp [closed])]
    exact closed

/-- From `c` to `d`, a closed session transmits no text, enters no handler but that of the call that
the worker had taken up, and lets every send fail at once. -/
structure Ceased (c d : Chronicle) : Prop where
  phase : d.session.phase = .closed
  texts : d.log.texts = c.log.texts
  entries : ∃ late, d.log.entries = c.log.entries ++ late ∧
    late.length ≤ c.session.takenUp.toNat ∧ ∀ x ∈ late, c.session.inbox.head? = some x.1
  sends : ∀ m v, ∃ f, (d.send m v).log = d.log ++ [(d.now, .settled d.asked.length (.error f))] ∧
    ∀ p, m.Encodes v p → f = .closing

theorem Reachable.ceased (h : c.Reachable) (closed : c.session.phase = .closed)
    (steps : Steps c d) : Ceased c d := by
  obtain ⟨finished, texts, ⟨late, entries, bound, own⟩, -⟩ := (h.over closed).steps steps
  have asked : d.asked.length = d.session.issued :=
    (Accounts.of_reachable (h.steps steps).desk).asked
  refine ⟨finished.phase, texts, ⟨late, entries, by omega, own⟩, fun m v => ?_⟩
  rcases d.session.turnsAway_or m v with ⟨f, why⟩ | ⟨p, fit, isOpen, -⟩
  · refine ⟨f, ?_, fun p fit => ?_⟩
    · rw [send, Turn.send_away why, asked]
      simp [log]
    · obtain ⟨valid, encoded⟩ := fit
      cases why with
      | invalid invalid => cases valid.symm.trans invalid
      | unencodable _ fails => cases encoded.symm.trans fails
      | ended => rfl
      | busy _ isOpen => exact absurd isOpen finished.not_open
  · exact absurd isOpen finished.not_open

/-- **Closing is final.** The phase of a session never goes back, and whatever comes between the
steps of closing it, the session is closed at their end. A close that finds the session no longer
open does nothing and returns at once. From the moment at which the session is closed, whatever
happens to it, it stays closed, transmits no text and enters no handler but that of the call that
its worker had taken up, and every send fails at once. Nor does anything that happens to its station
transmit a text; a caller is done or pauses, and whoever pauses is done once the last pause is
over. -/
theorem Reachable.close_final (h : c.Reachable) (hs : s.Reachable) (alive : s.gone = false) :
    (∀ d, Steps c d → c.session.phase ≤ d.session.phase) ∧
    (∀ d e, Steps (c.closing .start) d → Steps (d.closing .abandon) e →
      (e.closing .finish).session.phase = .closed) ∧
    (c.session.phase ≠ .opened → c.turn.close = (0, c.turn)) ∧
    (c.session.phase = .closed → ∀ d, Steps c d → Ceased c d) ∧
    (s.session.phase = .closed → ∀ u, Station.Steps s u → s.Ceased u) :=
  ⟨fun _ steps => steps.phase_le, fun _ _ begun abandoned => closed_of_steps begun abandoned,
    Turn.close_of_not_open, fun closed _ steps => h.ceased closed steps,
    fun closed _ steps => (hs.stopped alive closed).ceased steps⟩

/-- One caller waits when the session closes, and is done; another one pauses, and is done half a
second later. -/
theorem close_final_pausing :
    Station.pausing.callers.map (·.state) = [.waiting 0, .pausing] ∧
    Station.pausing.close.2.callers.map (·.state) = [.done, .pausing] ∧
    (∀ a ∈ (Station.pausing.close.2.advance 500).callers, a.state = .done) ∧
    (missed.close.send V16.heartbeat (.record [])).log =
      missed.close.log ++ [(10, .settled 2 (.error .closing))] := by
  have alive : Station.pausing.gone = false := by decide +kernel
  have closed : Station.pausing.close.2.Reachable :=
    Station.Reachable.pausing.steps (Station.steps_close alive)
  obtain ⟨-, -, -, ceased, callers⟩ :=
    (Reachable.missed.steps (steps_close missed)).close_final closed (by decide +kernel)
  obtain ⟨-, -, -, ends⟩ := callers (by decide +kernel) _ .refl
  obtain ⟨-, -, -, sends⟩ := ceased rfl _ .refl
  obtain ⟨f, fails, closing⟩ := sends V16.heartbeat (.record [])
  have last : ∀ t ∈ Station.pausing.close.2.agenda,
      t.deadline ≤ Station.pausing.close.2.now + 500 := by decide +kernel
  refine ⟨by decide +kernel, by decide +kernel, ends 500 fun t ht _ _ => last t ht, ?_⟩
  rw [fails, closing _ ⟨rfl, rfl⟩]
  rfl

/-- A central system whose worker has taken up a question, and has not entered its handler. -/
def pondering : Chronicle :=
  (Pair.central.takes (Pair.question "1" "A-1")).takeUp

/-- Its handler is running, and the session is about to close. -/
def leaving : Chronicle :=
  pondering.handle.closing .start

/-- A request without a fault that cannot be encoded. -/
def reluctant : Message where
  action := "Custom"
  request := ⟨"Custom", [], fun _ => some "scripted failure"⟩
  confirmation := ⟨"CustomResponse", [], fun _ => none⟩
  transactional := fun _ => false

/-- The return of a close is not final in everything. A handler whose call has been taken up is
entered after it. A close that finds another one under way returns at once, and a reply is
transmitted after it. And a request that has no fault, but cannot be encoded, does not fail because
the session is closed. -/
theorem close_final_not_at_once :
    (pondering.Reachable ∧ pondering.close.session.phase = .closed ∧
      pondering.close.log.entries = [] ∧
      Steps pondering.close pondering.close.handle ∧
      pondering.close.handle.log.entries.length = 1) ∧
    (leaving.Reachable ∧ leaving.turn.close.1 = 0 ∧ leaving.close.session.phase = .closing ∧
      leaving.close.log.texts = [] ∧
      Steps leaving.close (leaving.close.finish (.reply (Pair.verdict "Accepted"))) ∧
      (leaving.close.finish (.reply (Pair.verdict "Accepted"))).log.texts.length = 1) ∧
    reluctant.request.validate (.record []) = none ∧
    (missed.close.send reluctant (.record [])).log = missed.close.log ++
      [(10, .settled 2 (.error (.badRequest (.plain .internalError "scripted failure"))))] := by
  have opened : Pair.central.Reachable :=
    .opened _ _ _ _ _ _ _ _ ⟨by simp [Supervisor.create], List.nodup_nil⟩ rfl
  have considers : pondering.Reachable :=
    (opened.step (.takes (Frame.json_readBy _ (Pair.plain_question ..)))).step .takeUp
  exact ⟨⟨considers, rfl, rfl, .single .handle, rfl⟩,
    ⟨(considers.step .handle).step (.closing .start), rfl, rfl, rfl, .single (.finish _), rfl⟩,
    rfl, rfl⟩

end Chronicle

end ChargeLink

import ChargeLink.Proofs.Session.Casebook
import ChargeLink.Proofs.Session.Stopped
import ChargeLink.Proofs.Session.Validated

/-!
# What the end of an attempt leads to

A caller waits for its latest attempt, pauses after it, or is done with it; the
attempts before have all ended. So when a call ends, it is the latest attempt of
one caller that ends, if anybody's. The caller pauses then, if the failure may
pass and it has attempts left, and is done otherwise.

* `Casebook.Sound`: what is kept about the records of callers.
* `Casebook.Sound.settled`: the end of a call concerns the attempt that it was, and no other.
-/

namespace ChargeLink

/-! ## The attempts of one caller -/

theorem CallFailure.isTransient_iff {f : CallFailure} :
    f.isTransient = true ↔ f = .timeout ∨ f = .busy := by
  cases f <;> simp [isTransient]

namespace Backoff

variable {b : Backoff} {attempt ms : ℕ} {worthwhile : Bool}

theorem next_eq_giveUp_iff :
    b.next attempt worthwhile = .giveUp ↔ b.attempts ≤ attempt ∨ worthwhile = false := by
  unfold next
  split
  · rename_i stops
    simpa using stops
  · rename_i more
    split <;> simpa using more

theorem room_of_next (h : b.next attempt worthwhile ≠ .giveUp) :
    attempt < b.attempts ∧ worthwhile = true := by
  rw [Ne, next_eq_giveUp_iff, not_or, Nat.not_le, Bool.not_eq_false] at h
  exact h

theorem next_of_room (room : attempt < b.attempts) :
    b.next attempt true = (b.pauseAfter attempt).elim .undefined .pause := by
  cases pause : b.pauseAfter attempt <;> simp [next, Nat.not_le.2 room, pause]

theorem next_eq_undefined (h : b.next attempt worthwhile = .undefined) :
    attempt < b.attempts ∧ worthwhile = true ∧ b.pauseAfter attempt = none := by
  obtain ⟨room, rfl⟩ := room_of_next (by rw [h]; simp)
  rw [next_of_room room] at h
  cases pause : b.pauseAfter attempt with
  | none => exact ⟨room, rfl, rfl⟩
  | some ms => simp [pause] at h

theorem next_eq_pause (h : b.next attempt worthwhile = .pause ms) :
    attempt < b.attempts ∧ worthwhile = true ∧ b.pauseAfter attempt = some ms := by
  obtain ⟨room, rfl⟩ := room_of_next (by rw [h]; simp)
  rw [next_of_room room] at h
  cases pause : b.pauseAfter attempt with
  | none => simp [pause] at h
  | some ms' =>
    simp only [pause, Option.elim_some, Next.pause.injEq] at h
    exact ⟨room, rfl, congrArg some h⟩

end Backoff

namespace Station

variable {s : Station} {a x x' : Caller}

theorem mem_putCaller_iff (mem : x ∈ s.callers) (same : x.number = x'.number) :
    a ∈ (s.putCaller x').callers ↔ a = x' ∨ a ∈ s.callers ∧ a.number ≠ x'.number := by
  constructor
  · exact mem_putCaller
  · rintro (rfl | ⟨old, other⟩)
    · exact mem_putCaller_self mem same
    · exact mem_putCaller_of_ne old other

theorem mem_callers_report (mem : x ∈ s.callers) (o : Except CallFailure Value) :
    a ∈ (s.report x o).callers ↔
      a = { x with state := .done } ∨ a ∈ s.callers ∧ a.number ≠ x.number := by
  have callers : (s.report x o).callers = (s.putCaller { x with state := .done }).callers := by
    unfold report
    split <;> rfl
  rw [callers]
  exact mem_putCaller_iff mem rfl

theorem reported_report (x : Caller) (o : Except CallFailure Value) (n : ℕ)
    (o' : Except CallFailure Value) : Note.reported n o' ∈ (s.report x o).notes ↔
      Note.reported n o' ∈ s.notes ∨ x.listening = true ∧ n = x.number ∧ o' = o := by
  unfold report
  split
  · rename_i listens
    simp [note, putCaller, listens]
  · rename_i deaf
    simp [putCaller, deaf]

end Station

/-- The attempt timed out or found the session busy, and the session was open. -/
def Ending.Passing (e : Ending) : Prop :=
  (e.outcome = .error .timeout ∨ e.outcome = .error .busy) ∧ e.isOpen = true

/-- Each attempt but the first was submitted when the pause after the one before was over, which had
failed for a passing reason. -/
def Backoff.Paced (b : Backoff) (l : List Try) : Prop :=
  ∀ i p q, l[i]? = some p → l[i + 1]? = some q → ∃ e ms, p.ending = some e ∧ e.Passing ∧
    b.pauseAfter (i + 1) = some ms ∧ q.time = e.time + ms

namespace Try

variable {k : ℕ} {e : Ending} {p : Try}

theorem ticket_settle (k : ℕ) (e : Ending) (p : Try) : (p.settle k e).ticket = p.ticket := by
  unfold settle
  split <;> rfl

theorem time_settle (k : ℕ) (e : Ending) (p : Try) : (p.settle k e).time = p.time := by
  unfold settle
  split <;> rfl

theorem sends_settle (k : ℕ) (e : Ending) (p : Try) :
    (p.settle k e).message = p.message ∧ (p.settle k e).request = p.request := by
  unfold settle
  split <;> exact ⟨rfl, rfl⟩

/-- An attempt that has ended does not end again. -/
theorem settle_of_ended {e' : Ending} (ended : p.ending = some e') : p.settle k e = p := by
  simp [settle, ended]

theorem settle_of_ne (other : p.ticket ≠ k) : p.settle k e = p := by
  simp [settle, other]

theorem settle_self (open' : p.ending = none) :
    p.settle p.ticket e = { p with ending := some e } := by
  simp [settle, open']

end Try

namespace Backoff.Paced

variable {b : Backoff} {l : List Try} {p q : Try} {k : ℕ} {e : Ending}

theorem nil (b : Backoff) : b.Paced [] := by
  intro i p q found
  cases found

/-- Only the last attempt may still be going on. -/
theorem ended_of_lt (h : b.Paced l) {i : ℕ} (found : l[i]? = some p) (more : i + 1 < l.length) :
    ∃ e, p.ending = some e := by
  obtain ⟨e, -, ended, -⟩ := h i p l[i + 1] found (List.getElem?_eq_getElem more)
  exact ⟨e, ended⟩

/-- The next attempt is submitted. -/
theorem concat (h : b.Paced l)
    (last : ∀ before p, l = before ++ [p] → ∃ e ms, p.ending = some e ∧ e.Passing ∧
      b.pauseAfter l.length = some ms ∧ q.time = e.time + ms) : b.Paced (l ++ [q]) := by
  intro i p q' here next
  have short : i + 1 < (l ++ [q]).length := (List.getElem?_eq_some_iff.1 next).1
  rw [List.length_append, List.length_singleton] at short
  rw [List.getElem?_append_left (by omega)] at here
  by_cases more : i + 1 < l.length
  · rw [List.getElem?_append_left more] at next
    exact h i p q' here next
  · have same : i + 1 = l.length := by omega
    rw [same, List.getElem?_concat_length] at next
    cases next
    rw [same]
    refine last (l.take i) p ?_
    have at' : l[i] = p := (List.getElem?_eq_some_iff.1 here).2
    rw [← at', ← List.take_succ_eq_append_getElem (by omega), same, List.take_length]

/-- The call of a ticket has ended. -/
theorem settle (h : b.Paced l) (k : ℕ) (e : Ending) : b.Paced (l.map (.settle k e)) := by
  intro i p q here next
  rw [List.getElem?_map] at here next
  obtain ⟨p', first, rfl⟩ := Option.map_eq_some_iff.1 here
  obtain ⟨q', second, rfl⟩ := Option.map_eq_some_iff.1 next
  obtain ⟨e', ms, ended, passing, pause, time⟩ := h i p' q' first second
  refine ⟨e', ms, ?_, passing, pause, ?_⟩
  · rw [Try.settle_of_ended ended, ended]
  · rw [Try.time_settle, time]

end Backoff.Paced

namespace Casebook

/-! ## Tickets -/

/-- The tickets of a caller's attempts. -/
def tickets (tries : ℕ → List Try) (n : ℕ) : List ℕ :=
  (tries n).map Try.ticket

/-- Each ticket that was issued is that of one attempt; later attempts have later ones. -/
structure Ordered (tries : ℕ → List Try) (issued : ℕ) : Prop where
  fresh : ∀ n, ∀ k ∈ tickets tries n, k < issued
  all : ∀ k < issued, ∃ n, k ∈ tickets tries n
  ascending : ∀ n, (tickets tries n).Pairwise (· < ·)
  apart : ∀ n m k, k ∈ tickets tries n → k ∈ tickets tries m → n = m

variable {tries : ℕ → List Try} {issued k : ℕ} {e : Ending}

theorem tickets_settleAll (k : ℕ) (e : Ending) (tries : ℕ → List Try) (n : ℕ) :
    tickets (settleAll k e tries) n = tickets tries n := by
  simp [tickets, settleAll, Function.comp_def, Try.ticket_settle]

namespace Ordered

theorem settleAll (h : Ordered tries issued) (k : ℕ) (e : Ending) :
    Ordered (settleAll k e tries) issued := by
  have same := tickets_settleAll k e tries
  refine ⟨fun n => ?_, ?_, fun n => ?_, fun n m => ?_⟩
  · rw [same]
    exact h.fresh n
  · simpa only [same] using h.all
  · rw [same]
    exact h.ascending n
  · rw [same, same]
    exact h.apart n m

/-- A caller submits an attempt with the next ticket. -/
theorem submit (h : Ordered tries issued) (n : ℕ) {new : Try} (ticket : new.ticket = issued) :
    Ordered (Function.update tries n (tries n ++ [new])) (issued + 1) := by
  set tries' := Function.update tries n (tries n ++ [new])
  have own : tickets tries' n = tickets tries n ++ [issued] := by
    simp [tickets, tries', ticket]
  have others : ∀ m ≠ n, tickets tries' m = tickets tries m := by
    intro m other
    simp [tickets, tries', Function.update_of_ne other]
  have kept : ∀ m k, k ∈ tickets tries m → k ∈ tickets tries' m := by
    intro m k mem
    by_cases same : m = n
    · subst same
      rw [own]
      exact List.mem_append_left _ mem
    · rwa [others m same]
  have old : ∀ m k, k ∈ tickets tries' m → k ∈ tickets tries m ∨ m = n ∧ k = issued := by
    intro m k mem
    by_cases same : m = n
    · subst same
      rw [own] at mem
      simpa using mem
    · rw [others m same] at mem
      exact .inl mem
  refine ⟨fun m k mem => ?_, fun k lt => ?_, fun m => ?_, fun m m' k mem mem' => ?_⟩
  · rcases old m k mem with before | ⟨-, rfl⟩
    · exact Nat.lt_succ_of_lt (h.fresh m k before)
    · exact Nat.lt_succ_self _
  · rcases Nat.lt_succ_iff_lt_or_eq.1 lt with before | rfl
    · obtain ⟨m, mem⟩ := h.all k before
      exact ⟨m, kept m k mem⟩
    · exact ⟨n, by simp [own]⟩
  · by_cases same : m = n
    · subst same
      rw [own, List.pairwise_append]
      refine ⟨h.ascending m, List.pairwise_singleton _ _, fun k mem k' mem' => ?_⟩
      rw [List.mem_singleton.1 mem']
      exact h.fresh m k mem
    · rw [others m same]
      exact h.ascending m
  · rcases old m k mem with before | ⟨rfl, rfl⟩
    · rcases old m' k mem' with before' | ⟨rfl, rfl⟩
      · exact h.apart m m' k before before'
      · exact absurd (h.fresh m _ before) (Nat.lt_irrefl _)
    · rcases old m' _ mem' with before' | ⟨rfl, -⟩
      · exact absurd (h.fresh m' _ before') (Nat.lt_irrefl _)
      · rfl

end Ordered

/-! ## What is kept about callers -/

variable {c d : Casebook} {a x : Caller} {p : Try}

/-- How requests are sent again. -/
def backoff (c : Casebook) : Backoff :=
  c.station.session.config.retry

/-- How many attempts the caller may make. -/
def limit (c : Casebook) (a : Caller) : ℕ :=
  if a.retrying then c.backoff.attempts else 1

/-- The attempt with this ticket has not ended. -/
def Unsettled (c : Casebook) (k : ℕ) : Prop :=
  ∃ n, ∃ p ∈ c.tries n, p.ticket = k ∧ p.ending = none

/-- With this end of an attempt the caller is done: there is a reason why it makes no further one,
and it is told the outcome if it listens. -/
structure Concludes (c : Casebook) (a : Caller) (e : Ending) : Prop where
  last : a.retrying = true → e.Passing → c.backoff.attempts ≤ a.attempt
  told : a.listening = true → Note.reported a.number e.outcome ∈ c.station.notes

/-- How the latest attempt of a caller stands. While the caller pauses, the one entry of the agenda
that is for it comes when the pause after the attempt is over. -/
def Latest (c : Casebook) (a : Caller) (p : Try) : Prop :=
  match a.state with
  | .waiting k => p.ticket = k ∧ p.ending = none
  | .pausing => ∃ e ms, p.ending = some e ∧ e.Passing ∧ a.attempt < c.limit a ∧
      c.backoff.pauseAfter a.attempt = some ms ∧
      ∀ t ∈ c.station.agenda, t.task = .caller a.number → t.deadline = e.time + ms
  | .done => ∃ e, p.ending = some e ∧
      (c.backoff.next a.attempt true = .undefined ∨ c.Concludes a e)

/-- The record of a caller's attempts is in order. -/
structure Goes (c : Casebook) (a : Caller) : Prop where
  retrying : a.retrying = (c.retry a.number && a.message.transactional a.request)
  count : (c.tries a.number).length = a.attempt
  sends : ∀ p ∈ c.tries a.number, p.message = a.message ∧ p.request = a.request
  most : a.attempt ≤ c.limit a
  paced : c.backoff.Paced (c.tries a.number)
  latest : ∃ before p, c.tries a.number = before ++ [p] ∧ c.Latest a p
  told : ∀ o, Note.reported a.number o ∈ c.station.notes → a.state = .done ∧
    ∃ before p e, c.tries a.number = before ++ [p] ∧ p.ending = some e ∧ e.outcome = o

/-- All attempts before the latest one have ended. -/
theorem Goes.ended (h : c.Goes a) {before : List Try} {last : Try}
    (same : c.tries a.number = before ++ [last]) : ∀ p ∈ before, ∃ e, p.ending = some e := by
  intro p mem
  obtain ⟨i, lt, at'⟩ := List.getElem_of_mem mem
  refine h.paced.ended_of_lt (i := i) ?_ (by simpa [same] using lt)
  rw [same, List.getElem?_append_left lt, List.getElem?_eq_getElem lt, at']

/-- What is not about the caller may change. -/
theorem Goes.frame (h : c.Goes a) (retry : d.retry a.number = c.retry a.number)
    (tries : d.tries a.number = c.tries a.number) (backoff : d.backoff = c.backoff)
    (agenda : ∀ t ∈ d.station.agenda, t.task = .caller a.number → t ∈ c.station.agenda)
    (notes : ∀ o, Note.reported a.number o ∈ d.station.notes ↔
      Note.reported a.number o ∈ c.station.notes) : d.Goes a := by
  have limit : d.limit a = c.limit a := by rw [Casebook.limit, backoff, Casebook.limit]
  refine ⟨by rw [retry, h.retrying], by rw [tries, h.count], by rw [tries]; exact h.sends,
    by rw [limit]; exact h.most, by rw [tries, backoff]; exact h.paced, ?_, fun o told => ?_⟩
  · obtain ⟨before, p, same, latest⟩ := h.latest
    refine ⟨before, p, tries.trans same, ?_⟩
    unfold Latest at latest ⊢
    cases state : a.state with
    | waiting k => simpa only [state] using latest
    | pausing =>
      simp only [state] at latest ⊢
      obtain ⟨e, ms, ended, passing, room, pause, woken⟩ := latest
      rw [backoff, limit]
      exact ⟨e, ms, ended, passing, room, pause, fun t ht task => woken t (agenda t ht task) task⟩
    | done =>
      simp only [state] at latest ⊢
      obtain ⟨e, ended, undefined | ⟨last, told⟩⟩ := latest
      · exact ⟨e, ended, .inl (backoff ▸ undefined)⟩
      · refine ⟨e, ended, .inr ⟨backoff ▸ last, fun listens => (notes _).2 (told listens)⟩⟩
  · rw [tries]
    exact h.told o ((notes o).1 told)

/-- All records are in order, and so is the agenda. -/
structure Sound (c : Casebook) : Prop where
  attended : c.station.Attended c.Unsettled
  ordered : Ordered c.tries c.station.session.issued
  unknown : ∀ n, n ∉ c.station.callers.map Caller.number → c.tries n = []
  noted : ∀ n o, Note.reported n o ∈ c.station.notes → n ∈ c.station.callers.map Caller.number
  punctual : ∀ t ∈ c.station.agenda, c.station.now ≤ t.deadline
  woken : ∀ t ∈ c.station.agenda, ∀ n, t.task = .caller n →
    ∃ a ∈ c.station.callers, a.number = n ∧ a.state = .pausing
  once : ∀ t ∈ c.station.agenda, ∀ u ∈ c.station.agenda, ∀ n,
    t.task = .caller n → u.task = .caller n → t = u
  goes : ∀ a ∈ c.station.callers, c.Goes a

namespace Sound

/-- What is not about the callers may change. -/
theorem frame (h : c.Sound) {s : Station} (callers : s.callers = c.station.callers)
    (attended : s.Attended c.Unsettled) (issued : s.session.issued = c.station.session.issued)
    (config : s.session.config = c.station.session.config)
    (punctual : ∀ t ∈ s.agenda, s.now ≤ t.deadline)
    (agenda : ∀ t ∈ s.agenda, ∀ n, t.task = .caller n → t ∈ c.station.agenda)
    (notes : ∀ n o, Note.reported n o ∈ s.notes ↔ Note.reported n o ∈ c.station.notes) :
    (c.beside s).Sound := by
  refine ⟨attended, ?_, ?_, ?_, punctual, ?_, ?_, ?_⟩
  · show Ordered c.tries s.session.issued
    rw [issued]
    exact h.ordered
  · show ∀ n, n ∉ s.callers.map Caller.number → c.tries n = []
    rw [callers]
    exact h.unknown
  · show ∀ n o, Note.reported n o ∈ s.notes → n ∈ s.callers.map Caller.number
    rw [callers]
    exact fun n o told => h.noted n o ((notes n o).1 told)
  · show ∀ t ∈ s.agenda, ∀ n, t.task = .caller n → ∃ a ∈ s.callers, _
    rw [callers]
    exact fun t ht n task => h.woken t (agenda t ht n task) n task
  · exact fun t ht u hu n task task' =>
      h.once t (agenda t ht n task) u (agenda u hu n task') n task task'
  · show ∀ a ∈ s.callers, _
    rw [callers]
    refine fun a ha => (h.goes a ha).frame rfl rfl ?_ (fun t ht task => agenda t ht _ task)
      fun o => notes _ o
    rw [backoff, backoff, beside, config]

/-- One caller is replaced, or joins. -/
theorem change (h : c.Sound) (d : Casebook) (x : Caller)
    (swap : ∀ a, a ∈ d.station.callers ↔ a = x ∨ a ∈ c.station.callers ∧ a.number ≠ x.number)
    (others : ∀ n ≠ x.number, d.retry n = c.retry n ∧ d.tries n = c.tries n)
    (attended : d.station.Attended d.Unsettled)
    (ordered : Ordered d.tries d.station.session.issued) (backoff : d.backoff = c.backoff)
    (punctual : ∀ t ∈ d.station.agenda, d.station.now ≤ t.deadline)
    (agenda : ∀ t ∈ d.station.agenda, ∀ n ≠ x.number, t.task = .caller n → t ∈ c.station.agenda)
    (pauses : ∀ t ∈ d.station.agenda, t.task = .caller x.number → x.state = .pausing)
    (once : ∀ t ∈ d.station.agenda, ∀ u ∈ d.station.agenda,
      t.task = .caller x.number → u.task = .caller x.number → t = u)
    (notes : ∀ n ≠ x.number, ∀ o, Note.reported n o ∈ d.station.notes ↔
      Note.reported n o ∈ c.station.notes)
    (goes : d.Goes x) : d.Sound := by
  have numbers : ∀ n, n ∈ d.station.callers.map Caller.number ↔
      n = x.number ∨ n ∈ c.station.callers.map Caller.number := by
    intro n
    simp only [List.mem_map, swap]
    constructor
    · rintro ⟨a, rfl | ⟨mem, -⟩, rfl⟩
      · exact .inl rfl
      · exact .inr ⟨a, mem, rfl⟩
    · intro mem
      by_cases same : n = x.number
      · exact ⟨x, .inl rfl, same.symm⟩
      · obtain ⟨a, ha, rfl⟩ := mem.resolve_left same
        exact ⟨a, .inr ⟨ha, same⟩, rfl⟩
  refine ⟨attended, ordered, fun n absent => ?_, fun n o told => ?_, punctual,
    fun t ht n task => ?_, fun t ht u hu n task task' => ?_, fun a ha => ?_⟩
  · rw [numbers, not_or] at absent
    rw [(others n absent.1).2]
    exact h.unknown n absent.2
  · rw [numbers, or_iff_not_imp_left]
    exact fun other => h.noted n o ((notes n other o).1 told)
  · by_cases same : n = x.number
    · subst same
      exact ⟨x, (swap x).2 (.inl rfl), rfl, pauses t ht task⟩
    · obtain ⟨a, ha, rfl, state⟩ := h.woken t (agenda t ht n same task) n task
      exact ⟨a, (swap a).2 (.inr ⟨ha, same⟩), rfl, state⟩
  · by_cases same : n = x.number
    · subst same
      exact once t ht u hu task task'
    · exact h.once t (agenda t ht n same task) u (agenda u hu n same task') n task task'
  · rcases (swap a).1 ha with rfl | ⟨mem, other⟩
    · exact goes
    · exact (h.goes a mem).frame (others _ other).1 (others _ other).2 backoff
        (fun t ht task => agenda t ht _ other task) (notes _ other)

/-! ## A call has ended -/

/-- Whoever's attempt is still going on waits for it. -/
theorem waits_of_unsettled (h : c.Sound) {n : ℕ} (mem : p ∈ c.tries n) (going : p.ending = none) :
    ∃ a ∈ c.station.callers, a.number = n ∧ a.state = .waiting p.ticket := by
  have known : n ∈ c.station.callers.map Caller.number := by
    by_contra absent
    rw [h.unknown n absent] at mem
    cases mem
  obtain ⟨a, ha, rfl⟩ := List.mem_map.1 known
  have goes := h.goes a ha
  obtain ⟨before, q, same, latest⟩ := goes.latest
  -- it is the latest attempt, as those before have ended
  have last : p = q := by
    rw [same] at mem
    rcases List.mem_append.1 mem with mem | mem
    · obtain ⟨e, ended⟩ := goes.ended same p mem
      rw [going] at ended
      cases ended
    · exact List.mem_singleton.1 mem
  subst last
  refine ⟨a, ha, rfl, ?_⟩
  unfold Latest at latest
  cases state : a.state with
  | waiting k =>
    simp only [state] at latest
    rw [latest.1]
  | pausing =>
    simp only [state, going] at latest
    obtain ⟨_, _, ended, -⟩ := latest
    cases ended
  | done =>
    simp only [state, going] at latest
    obtain ⟨_, ended, -⟩ := latest
    cases ended

/-- If nobody waits for the call that has ended, no attempt ends. -/
theorem settleAll_of_none (h : c.Sound) {k : ℕ} (e : Ending)
    (none : ∀ a ∈ c.station.callers, a.state ≠ .waiting k) : settleAll k e c.tries = c.tries := by
  funext n
  refine (List.map_congr_left fun p mem => ?_).trans (List.map_id _)
  by_cases same : p.ticket = k
  · cases ending : p.ending with
    | none =>
      obtain ⟨a, ha, -, waits⟩ := h.waits_of_unsettled mem ending
      exact absurd (same ▸ waits) (none a ha)
    | some e' => exact Try.settle_of_ended ending
  · exact Try.settle_of_ne same

/-- If somebody waits for the call that has ended, the latest attempt of that caller ends. -/
theorem settleAll_of_waiting (h : c.Sound) (mem : x ∈ c.station.callers) {k : ℕ}
    (waits : x.state = .waiting k) (e : Ending) : ∃ before p, c.tries x.number = before ++ [p] ∧
      settleAll k e c.tries =
        Function.update c.tries x.number (before ++ [{ p with ending := some e }]) := by
  obtain ⟨before, p, same, latest⟩ := (h.goes x mem).latest
  simp only [Latest, waits] at latest
  obtain ⟨rfl, going⟩ := latest
  refine ⟨before, p, same, funext fun n => ?_⟩
  by_cases own : n = x.number
  · subst own
    -- the tickets ascend, so the earlier ones are others
    have ascending := h.ordered.ascending x.number
    rw [tickets, same, List.map_append, List.pairwise_append] at ascending
    have earlier : before.map (Try.settle p.ticket e) = before := by
      refine (List.map_congr_left fun q hq => ?_).trans (List.map_id _)
      have lt := ascending.2.2 _ (List.mem_map_of_mem hq) p.ticket (by simp)
      exact Try.settle_of_ne (Nat.ne_of_lt lt)
    rw [Function.update_self, settleAll, same, List.map_append, earlier]
    simp [Try.settle_self going]
  · rw [Function.update_of_ne own]
    refine (List.map_congr_left fun q hq => ?_).trans (List.map_id _)
    refine Try.settle_of_ne fun ticket => own ?_
    refine h.ordered.apart n x.number p.ticket (ticket ▸ List.mem_map_of_mem hq) ?_
    rw [tickets, same]
    simp

theorem unsettled_settleAll {k i : ℕ} {e : Ending} (h : c.Unsettled i) (other : i ≠ k)
    (tries : d.tries = settleAll k e c.tries) : d.Unsettled i := by
  obtain ⟨n, p, mem, rfl, going⟩ := h
  refine ⟨n, p, ?_, rfl, going⟩
  rw [tries]
  exact List.mem_map.2 ⟨p, mem, Try.settle_of_ne other⟩

/-- The agenda holds nothing for a caller who waits. -/
theorem unwoken (h : c.Sound) (mem : x ∈ c.station.callers) {k : ℕ} (waits : x.state = .waiting k)
    {t : Timer Wake} (ht : t ∈ c.station.agenda) : t.task ≠ .caller x.number := by
  intro task
  obtain ⟨a, ha, number, state⟩ := h.woken t ht _ task
  have same : a = x := List.inj_on_of_nodup_map h.attended.numbers ha mem number
  rw [same, waits] at state
  cases state

/-- The attempt of a caller ends, which is in another state then and may have an entry on the
agenda. -/
theorem resolve (h : c.Sound) (mem : x ∈ c.station.callers) {k : ℕ} (waits : x.state = .waiting k)
    (e : Ending) (d : Casebook) (state : CallerState) (new : Option (Timer Wake))
    (retry : d.retry = c.retry) (tries : d.tries = settleAll k e c.tries)
    (swap : ∀ a, a ∈ d.station.callers ↔
      a = { x with state } ∨ a ∈ c.station.callers ∧ a.number ≠ x.number)
    (attended : d.station.Attended d.Unsettled) (session : d.station.session = c.station.session)
    (now : d.station.now = c.station.now)
    (agenda : ∀ t ∈ d.station.agenda, t ∈ c.station.agenda ∨ t ∈ new)
    (pauses : ∀ t ∈ new, state = .pausing ∧ c.station.now ≤ t.deadline ∧ t.task = .caller x.number)
    (notes : ∀ n o, Note.reported n o ∈ d.station.notes → Note.reported n o ∈ c.station.notes ∨
      n = x.number ∧ o = e.outcome ∧ state = .done)
    (kept : ∀ n o, Note.reported n o ∈ c.station.notes → Note.reported n o ∈ d.station.notes)
    (latest : ∀ p : Try, d.Latest { x with state } { p with ending := some e }) : d.Sound := by
  have goes := h.goes x mem
  obtain ⟨before, p, same, update⟩ := h.settleAll_of_waiting mem waits e
  have own : d.tries x.number = before ++ [{ p with ending := some e }] := by
    rw [tries, update, Function.update_self]
  have untold : ∀ o, Note.reported x.number o ∉ c.station.notes := by
    intro o told
    have done := (goes.told o told).1
    rw [waits] at done
    cases done
  have mine : ∀ t ∈ d.station.agenda, t.task = .caller x.number → t ∈ new := fun t ht task =>
    (agenda t ht).resolve_left fun old => h.unwoken mem waits old task
  have backoff : d.backoff = c.backoff := by rw [backoff, session, Casebook.backoff]
  refine h.change d { x with state } swap (fun n other => ⟨by rw [retry], ?_⟩) attended ?_ backoff
    (fun t ht => ?_) (fun t ht n other task => ?_) (fun t ht task => ?_)
    (fun t ht u hu task task' => ?_) (fun n other o => ⟨fun told => ?_, kept n o⟩)
    ⟨?_, ?_, ?_, ?_, ?_, ⟨before, _, own, latest p⟩, fun o told => ?_⟩
  · rw [tries, update, Function.update_of_ne other]
  · rw [tries, session]
    exact h.ordered.settleAll k e
  · rw [now]
    rcases agenda t ht with old | fresh
    · exact h.punctual t old
    · exact (pauses t fresh).2.1
  · refine (agenda t ht).resolve_right fun fresh => other ?_
    have same := (pauses t fresh).2.2
    rw [task] at same
    cases same
    rfl
  · exact (pauses t (mine t ht task)).1
  · exact Option.mem_unique (mine t ht task) (mine u hu task')
  · exact (notes n o told).resolve_right fun own => other own.1
  · rw [retry]
    exact goes.retrying
  · rw [own, ← goes.count, same]
    simp
  · rw [tries]
    refine List.forall_mem_map.2 fun q mem => ?_
    obtain ⟨message, request⟩ := Try.sends_settle k e q
    rw [message, request]
    exact goes.sends q mem
  · rw [limit, backoff]
    exact goes.most
  · rw [backoff, tries]
    exact goes.paced.settle k e
  · rcases notes _ o told with told | ⟨-, rfl, done⟩
    · exact absurd told (untold o)
    · exact ⟨done, before, _, e, own, rfl, rfl⟩

/-- Everybody else who waits still does so. -/
theorem others_waiting (h : c.Sound) (mem : x ∈ c.station.callers) {k : ℕ}
    (waits : x.state = .waiting k) {e : Ending} (tries : d.tries = settleAll k e c.tries) :
    ∀ a ∈ c.station.callers, a.number ≠ x.number → ∀ i, a.state = .waiting i →
      d.Unsettled i ∧ i ≠ k := by
  intro a ha other i state
  have apart : i ≠ k := by
    rintro rfl
    exact other (congrArg Caller.number (h.attended.apart a ha x mem i state waits))
  exact ⟨unsettled_settleAll (h.attended.waiting a ha i state) apart tries, apart⟩

/-- A caller is done, and told the outcome of its attempt. -/
theorem conclude (h : c.Sound) (mem : x ∈ c.station.callers) {k : ℕ} (waits : x.state = .waiting k)
    (o : Except CallFailure Value)
    (last : x.retrying = true → (c.ending o).Passing → c.backoff.attempts ≤ x.attempt) :
    Sound { c with
      station := c.station.report x o
      tries := settleAll k (c.ending o) c.tries } := by
  have takes := Station.Takes.report c.station x o
  have agenda : (c.station.report x o).agenda = c.station.agenda := by
    unfold Station.report
    split <;> rfl
  refine h.resolve mem waits (c.ending o) _ .done none rfl rfl
    (fun a => Station.mem_callers_report mem o) ?_ takes.session takes.now ?_ (by simp) ?_ ?_ ?_
  · exact h.attended.report fun a ha other i state =>
      (h.others_waiting mem waits rfl a ha other i state).1
  · intro t ht
    rw [agenda] at ht
    exact .inl ht
  · intro n o' told
    rcases (Station.reported_report x o n o').1 told with old | ⟨-, rfl, rfl⟩
    · exact .inl old
    · exact .inr ⟨rfl, rfl, rfl⟩
  · exact fun n o' told => (Station.reported_report x o n o').2 (.inl told)
  · intro p
    refine ⟨_, rfl, .inr ⟨?_, fun listens => ?_⟩⟩
    · rw [backoff, takes.session]
      exact last
    · exact (Station.reported_report x o x.number o).2 (.inr ⟨listens, rfl, rfl⟩)

/-- A caller pauses after its attempt. -/
theorem pause (h : c.Sound) (mem : x ∈ c.station.callers) {k : ℕ} (waits : x.state = .waiting k)
    (o : Except CallFailure Value) (passing : (c.ending o).Passing) {ms : ℕ}
    (room : x.attempt < c.limit x) (pause : c.backoff.pauseAfter x.attempt = some ms) :
    Sound { c with
      station := (c.station.putCaller { x with state := .pausing }).later ms (.caller x.number)
      tries := settleAll k (c.ending o) c.tries } := by
  set entry : Timer Wake :=
    ⟨c.station.timers.nextKey, c.station.now + ms, .caller x.number⟩ with hentry
  refine h.resolve mem waits (c.ending o) _ .pausing (some entry) rfl rfl
    (fun a => Station.mem_putCaller_iff mem rfl) ?_ rfl rfl ?_ ?_ (fun n o' => .inl)
    (fun n o' => id) ?_
  · have woken := h.attended.later ms (.caller x.number)
    refine woken.put { x with state := .pausing } (fun a ha other i state => ⟨?_, by simp⟩)
      (by simp) fun _ => ⟨_, List.mem_cons_self, rfl⟩
    exact (h.others_waiting mem waits rfl a ha other i state).1
  · intro t ht
    rcases List.mem_cons.1 ht with rfl | old
    · exact .inr rfl
    · exact .inl old
  · intro t ht
    cases ht
    exact ⟨rfl, Nat.le_add_right .., rfl⟩
  · intro p
    refine ⟨_, ms, rfl, passing, room, pause, fun t ht task => ?_⟩
    rcases List.mem_cons.1 ht with rfl | old
    · rfl
    · exact absurd task (h.unwoken mem waits old)

/-- A caller stops because the pause after its attempt is undefined. -/
theorem stop (h : c.Sound) (mem : x ∈ c.station.callers) {k : ℕ} (waits : x.state = .waiting k)
    (o : Except CallFailure Value) (undefined : c.backoff.next x.attempt true = .undefined) :
    Sound { c with
      station := c.station.putCaller { x with state := .done }
      tries := settleAll k (c.ending o) c.tries } := by
  refine h.resolve mem waits (c.ending o) _ .done none rfl rfl
    (fun a => Station.mem_putCaller_iff mem rfl) ?_ rfl rfl (fun t ht => .inl ht) (by simp)
    (fun n o' => .inl) (fun n o' => id) fun p => ⟨_, rfl, .inl undefined⟩
  refine h.attended.put { x with state := .done } (fun a ha other i state => ⟨?_, by simp⟩)
    (by simp) (by simp)
  exact (h.others_waiting mem waits rfl a ha other i state).1

/-- **The end of a call concerns the attempt that it was, and no other.** -/
theorem settled (h : c.Sound) (k : ℕ) (o : Except CallFailure Value) :
    (c.absorb (.settled k o)).Sound := by
  show Sound { c with
    station := c.station.settled k o
    tries := settleAll k (c.ending o) c.tries }
  unfold Station.settled
  split
  · rename_i none
    rw [h.settleAll_of_none]
    · exact h
    · intro a ha
      simpa using List.find?_eq_none.1 none a ha
  · rename_i x found
    have mem : x ∈ c.station.callers := List.mem_of_find?_eq_some found
    have waits : x.state = .waiting k := by simpa using List.find?_some found
    split
    · refine h.conclude mem waits _ fun _ passing => ?_
      rcases passing.1 with same | same <;> cases same
    · rename_i f
      by_cases retrying : x.retrying = true
      · rw [if_pos retrying]
        -- the failure passes if the caller would say so
        have worth : ∀ {w : Bool}, w = (f.isTransient && c.station.session.isOpen) →
            (w = true ↔ (c.ending (.error f)).Passing) := by
          rintro _ rfl
          simp [Ending.Passing, ending, CallFailure.isTransient_iff]
        split
        · rename_i giveUp
          refine h.conclude mem waits _ fun _ passing => ?_
          refine (Backoff.next_eq_giveUp_iff.1 giveUp).resolve_right fun unworthy => ?_
          rw [(worth rfl).2 passing] at unworthy
          cases unworthy
        · rename_i undefined
          have worthy := (Backoff.next_eq_undefined undefined).2.1
          rw [worthy] at undefined
          exact h.stop mem waits _ undefined
        · rename_i pauses
          obtain ⟨room, worthy, pause⟩ := Backoff.next_eq_pause pauses
          refine h.pause mem waits _ ((worth rfl).1 worthy) ?_ pause
          rwa [limit, if_pos retrying]
      · rw [if_neg retrying]
        exact h.conclude mem waits _ fun again => absurd again retrying

end Sound

end Casebook

end ChargeLink

import ChargeLink.Proofs.Session.Stations

/-!
# Notes that have been taken

Whoever looks at a station takes its notes. A station never reads them, so it
does the same whether they are still there or not: what holds of the stations of
all runs also holds of a station whose notes are taken now and then.

* `Station.Step.restore`: every step leaves the notes that were taken where they are.
* `Station.restore_takeNotes`: taking the notes is no step at all.
-/

namespace ChargeLink.Station

variable {s t : Station} {taken : List Note}

/-- The station as if the notes taken from it were still there. -/
def restore (taken : List Note) (s : Station) : Station :=
  { s with notes := taken ++ s.notes }

/-- Notes that are taken can be put back. -/
theorem restore_takeNotes (s : Station) (taken : List Note) :
    s.takeNotes.2.restore (taken ++ s.notes) = s.restore taken := by
  simp [restore, takeNotes]

/-! ## What a station does without its notes -/

theorem note_restore (n : Note) : (s.restore taken).note n = (s.note n).restore taken := by
  simp [note, restore]

theorem putCaller_restore (c : Caller) :
    (s.restore taken).putCaller c = (s.putCaller c).restore taken :=
  rfl

theorem report_restore (c : Caller) (o : Except CallFailure Value) :
    (s.restore taken).report c o = (s.report c o).restore taken := by
  unfold report
  simp only [putCaller_restore]
  split
  · exact note_restore _
  · rfl

theorem settled_restore (k : ℕ) (o : Except CallFailure Value) :
    (s.restore taken).settled k o = (s.settled k o).restore taken := by
  unfold settled
  rw [show (s.restore taken).callers = s.callers from rfl,
    show (s.restore taken).session = s.session from rfl]
  split
  · rfl
  · split
    · exact report_restore ..
    · split
      · split
        · exact report_restore ..
        · rfl
        · rfl
      · exact report_restore ..

theorem entered_restore (h : Handler) (request : Value) :
    (s.restore taken).entered h request = (s.entered h request).restore taken := by
  have noted : ({ s.restore taken with tally := s.tally.enter h.action } : Station).note
      (.entered h request) =
      (({ s with tally := s.tally.enter h.action } : Station).note (.entered h request)).restore
        taken :=
    note_restore (s := { s with tally := s.tally.enter h.action }) _
  unfold entered
  rw [show (s.restore taken).tally = s.tally from rfl, noted]
  simp only
  split <;> rfl

theorem absorb_restore (e : Effect) : (s.restore taken).absorb e = (s.absorb e).restore taken := by
  cases e with
  | sent | published | dispatched => exact note_restore _
  | settled => exact settled_restore ..
  | entered => exact entered_restore ..
  | accepted | started | called | returned => rfl

theorem foldl_absorb_restore : ∀ (es : List Effect) (s : Station),
    es.foldl absorb (s.restore taken) = (es.foldl absorb s).restore taken
  | [], _ => rfl
  | e :: es, s => by
    rw [List.foldl_cons, List.foldl_cons, absorb_restore, foldl_absorb_restore es]

theorem adopt_restore (w : Turn) : (s.restore taken).adopt w = (s.adopt w).restore taken :=
  foldl_absorb_restore w.effects { s with session := w.session, timers := w.timers }

theorem act_restore (f : Turn → Turn) : (s.restore taken).act f = (s.act f).restore taken :=
  adopt_restore _

theorem attempt_restore (c : Caller) :
    (s.restore taken).attempt c = (s.attempt c).restore taken := by
  rw [attempt_eq, attempt_eq]
  exact adopt_restore (s := s.putCaller (c.next s.session.issued)) _

theorem issue_restore (number : ℕ) (m : Message) (v : Value) (retry : Bool) :
    (s.restore taken).issue number m v retry = (s.issue number m v retry).restore taken :=
  attempt_restore (s := { s with callers := s.callers ++ [_] }) _

theorem vanish_restore : (s.restore taken).vanish = s.vanish.restore taken := by
  have reports : ∀ (callers : List Caller) (s : Station),
      callers.foldl (fun s c => s.report c (.error .closing)) (s.restore taken) =
        (callers.foldl (fun s c => s.report c (.error .closing)) s).restore taken := by
    intro callers
    induction callers with
    | nil => exact fun _ => rfl
    | cons c r ih =>
      intro s
      rw [List.foldl_cons, List.foldl_cons, report_restore, ih]
  exact reports _ { s with gone := true }

theorem fireExpiry_restore (x : Timer Expiry) :
    (s.restore taken).fireExpiry x = (s.fireExpiry x).restore taken := by
  set s' : Station := { s with now := max s.now x.deadline, timers := s.timers.abort x.key }
  show (if s.gone then s'.restore taken else
    (s'.restore taken).act fun turn => turn.expire x.task.call) = (if s.gone then s' else
      s'.act fun turn => turn.expire x.task.call).restore taken
  split
  · rfl
  · exact act_restore _

theorem fireWake_restore (x : Timer Wake) :
    (s.restore taken).fireWake x = (s.fireWake x).restore taken := by
  set s' : Station := { s with
    now := max s.now x.deadline
    agenda := s.agenda.filter fun u => u.key != x.key }
  cases task : x.task with
  | handler answer =>
    simp only [fireWake, task]
    exact act_restore (s := s') _
  | caller number =>
    have same : (s.restore taken).callers = s.callers := rfl
    cases found : s.callers.find? fun c : Caller => c.number = number with
    | some c =>
      simp only [fireWake, task, same, found]
      exact attempt_restore (s := s') c
    | none =>
      simp only [fireWake, task, same, found]
      rfl

theorem perform_restore (w : Work) :
    (s.restore taken).perform w = (s.perform w).restore taken := by
  cases w with
  | vanish => exact vanish_restore
  | finish answer =>
    exact act_restore (s := { s with ready := none }) fun turn => turn.finish answer
  | serve => exact act_restore _
  | expiry x => exact fireExpiry_restore x
  | wake x => exact fireWake_restore x

/-- What a station does next does not depend on its notes. -/
theorem work?_restore (limit : ℕ) : (s.restore taken).work? limit = s.work? limit :=
  rfl

/-- **A station does the same whether its notes have been taken or not.** -/
theorem Step.restore (h : Step s t) (taken : List Note) :
    Step (s.restore taken) (t.restore taken) := by
  cases h with
  | issue number m v retry alive fresh =>
    rw [← issue_restore]
    exact .issue number m v retry alive fresh
  | receive text alive =>
    rw [← act_restore]
    exact .receive text alive
  | unlink alive =>
    rw [← act_restore]
    exact .unlink alive
  | closing step alive =>
    rw [← act_restore]
    exact .closing step alive
  | takeUp alive =>
    rw [← act_restore]
    exact .takeUp alive
  | handle alive =>
    rw [← act_restore]
    exact .handle alive
  | forget number => exact .forget number
  | release => exact .release
  | work limit next =>
    rw [← perform_restore]
    exact .work limit ((work?_restore limit).trans next)
  | pass time later idle => exact .pass time later ((work?_restore time).trans idle)
  | renumber n later => exact .renumber n later
  | retally tally => exact .retally tally

end ChargeLink.Station

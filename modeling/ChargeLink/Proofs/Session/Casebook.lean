import ChargeLink.Proofs.Session.Callers
import Mathlib.Logic.Function.Basic

/-!
# The attempts of callers

Of a caller's attempts a station remembers only how many there were. A casebook
is a station with a record of them all: the ticket of each, when it was
submitted, and how and when it ended. The record is kept beside the station,
which does what it would do anyway.

* `Casebook.Step.station`: without its record, a casebook takes the steps of a station.
* `Station.Reachable.recorded`: every run of a station can be recorded.
-/

namespace ChargeLink

/-- How an attempt ended: when, with which outcome, and whether the session was open then. -/
structure Ending where
  time : ℕ
  outcome : Except CallFailure Value
  isOpen : Bool

/-- An attempt: a send of a request, and how it ended, once it has. -/
structure Try where
  message : Message
  request : Value
  ticket : ℕ
  time : ℕ
  ending : Option Ending

/-- The call of a ticket has ended; if it is that of this attempt, so has the attempt. -/
def Try.settle (k : ℕ) (e : Ending) (p : Try) : Try :=
  if p.ticket = k ∧ p.ending.isNone then { p with ending := some e } else p

/-- A station with a record of the attempts of its callers. -/
structure Casebook where
  station : Station
  /-- Whether the caller of a number has asked for more than one attempt. -/
  retry : ℕ → Bool
  /-- The attempts of the caller of a number, the first one first. -/
  tries : ℕ → List Try

namespace Casebook

/-- The record once the call of a ticket has ended. -/
def settleAll (k : ℕ) (e : Ending) (tries : ℕ → List Try) : ℕ → List Try :=
  fun n => (tries n).map (.settle k e)

/-- The station is in another state; this concerns no attempt. -/
def beside (c : Casebook) (s : Station) : Casebook :=
  { c with station := s }

/-- How an attempt ends that gets this outcome now. -/
def ending (c : Casebook) (o : Except CallFailure Value) : Ending :=
  ⟨c.station.now, o, c.station.session.isOpen⟩

/-- Takes in one effect of the session. -/
def absorb (c : Casebook) (e : Effect) : Casebook :=
  { c with
    station := c.station.absorb e
    tries := match e with
      | .settled k o => settleAll k (c.ending o) c.tries
      | _ => c.tries }

/-- Takes in what a turn of the session has brought about. -/
def adopt (c : Casebook) (t : Turn) : Casebook :=
  t.effects.foldl absorb (c.beside { c.station with session := t.session, timers := t.timers })

/-- Lets the session do something. -/
def act (c : Casebook) (f : Turn → Turn) : Casebook :=
  c.adopt (f c.station.turn)

/-- A caller submits its next attempt. -/
def submit (c : Casebook) (x : Caller) : Casebook :=
  { c with
    station := c.station.putCaller (x.next c.station.session.issued)
    tries := Function.update c.tries x.number (c.tries x.number ++
      [⟨x.message, x.request, c.station.session.issued, c.station.now, none⟩]) }

/-- Makes a caller's next attempt. -/
def attempt (c : Casebook) (x : Caller) : Casebook :=
  (c.submit x).adopt (c.station.turn.send x.message x.request).2

/-- Issues a request for a new caller. -/
def issue (c : Casebook) (number : ℕ) (m : Message) (v : Value) (retry : Bool) : Casebook :=
  let x : Caller := ⟨number, m, v, retry && m.transactional v, 0, .done, true⟩
  ({ c with
    station := { c.station with callers := c.station.callers ++ [x] }
    retry := Function.update c.retry number retry } : Casebook).attempt x

/-- A caller is told that the session is no more, and so its attempt ends. -/
def abandon (c : Casebook) (x : Caller) : Casebook :=
  { c with
    station := c.station.report x (.error .closing)
    tries := match x.state with
      | .waiting k => settleAll k (c.ending (.error .closing)) c.tries
      | _ => c.tries }

/-- The session is no more. -/
def vanish (c : Casebook) : Casebook :=
  (c.station.callers.filter fun x => x.state != .done).foldl abandon
    (c.beside { c.station with gone := true })

/-- A timer of the session has come. -/
def fireExpiry (c : Casebook) (t : Timer Expiry) : Casebook :=
  let c := c.beside { c.station with
    now := max c.station.now t.deadline, timers := c.station.timers.abort t.key }
  if c.station.gone then c else c.act fun turn => turn.expire t.task.call

/-- Something on the agenda has come. -/
def fireWake (c : Casebook) (t : Timer Wake) : Casebook :=
  let c := c.beside (({ c.station with now := max c.station.now t.deadline } : Station).without t)
  match t.task with
  | .handler answer => c.act fun turn => turn.finish answer
  | .caller number =>
    match c.station.callers.find? fun x => x.number = number with
    | some x => c.attempt x
    | none => c

/-- Does a piece of work. -/
def perform (c : Casebook) : Station.Work → Casebook
  | .vanish => c.vanish
  | .finish answer => (c.beside { c.station with ready := none }).act fun turn => turn.finish answer
  | .serve => c.act Turn.serve
  | .expiry t => c.fireExpiry t
  | .wake t => c.fireWake t

/-- What may happen to a station, on record. -/
inductive Step : Casebook → Casebook → Prop
  | issue {c} (number : ℕ) (m : Message) (v : Value) (retry : Bool)
      (alive : c.station.gone = false) (fresh : number ∉ c.station.callers.map Caller.number) :
      Step c (c.issue number m v retry)
  | receive {c} (text : String) (alive : c.station.gone = false) :
      Step c (c.act fun t => t.receive text)
  | unlink {c} (alive : c.station.gone = false) : Step c (c.act Turn.unlink)
  | closing {c} (step : ClosingStep) (alive : c.station.gone = false) :
      Step c (c.act fun t => t.closing step)
  | takeUp {c} (alive : c.station.gone = false) : Step c (c.act Turn.takeUp)
  | handle {c} (alive : c.station.gone = false) : Step c (c.act Turn.handle)
  | forget {c} (number : ℕ) : Step c (c.beside (c.station.forget number))
  | release {c} : Step c (c.beside c.station.release)
  | work {c w} (limit : ℕ) (next : c.station.work? limit = some w) : Step c (c.perform w)
  | pass {c} (time : ℕ) (later : c.station.now ≤ time) (idle : c.station.work? time = none) :
      Step c (c.beside { c.station with now := time })
  | renumber {c} (n : ℕ) (later : c.station.timers.nextKey ≤ n) :
      Step c (c.beside { c.station with timers := { c.station.timers with nextKey := n } })
  | retally {c} (tally : Tally) : Step c (c.beside { c.station with tally })

/-- The casebooks of all runs. -/
inductive Reachable : Casebook → Prop
  | opened (number : ℕ) (chargePointId : String) (registry : Registry) (config : SessionConfig)
      (codec : Codec) (label : String) (loop : Bool) (now : ℕ) (tally : Tally) :
      Reachable ⟨.ofTurn (.openSession number chargePointId registry config codec label
        (.create loop) now) tally, fun _ => false, fun _ => []⟩
  | step {c d} : Reachable c → Step c d → Reachable d

/-! ## The station of a casebook -/

variable {c d : Casebook}

theorem foldl_absorb_station : ∀ (es : List Effect) (c : Casebook),
    (es.foldl absorb c).station = es.foldl Station.absorb c.station
  | [], _ => rfl
  | e :: es, c => foldl_absorb_station es (c.absorb e)

theorem adopt_station (c : Casebook) (t : Turn) : (c.adopt t).station = c.station.adopt t :=
  foldl_absorb_station _ _

theorem act_station (c : Casebook) (f : Turn → Turn) : (c.act f).station = c.station.act f :=
  adopt_station _ _

theorem attempt_station (c : Casebook) (x : Caller) :
    (c.attempt x).station = c.station.attempt x := by
  rw [attempt, adopt_station, Station.attempt_eq]
  rfl

theorem vanish_station (c : Casebook) : c.vanish.station = c.station.vanish := by
  have each : ∀ (callers : List Caller) (c : Casebook), (callers.foldl abandon c).station =
      callers.foldl (fun s x => s.report x (.error .closing)) c.station := by
    intro callers
    induction callers with
    | nil => exact fun c => rfl
    | cons x r ih => exact fun c => ih (c.abandon x)
  exact each _ _

theorem fireExpiry_station (c : Casebook) (t : Timer Expiry) :
    (c.fireExpiry t).station = c.station.fireExpiry t := by
  set d := c.beside { c.station with
    now := max c.station.now t.deadline, timers := c.station.timers.abort t.key }
  show (if d.station.gone then d else d.act fun turn => turn.expire t.task.call).station =
    if d.station.gone then d.station else d.station.act fun turn => turn.expire t.task.call
  split
  · rfl
  · exact act_station d _

theorem fireWake_station (c : Casebook) (t : Timer Wake) :
    (c.fireWake t).station = c.station.fireWake t := by
  unfold fireWake Station.fireWake
  simp only [beside, Station.without]
  cases t.task with
  | handler answer => exact act_station _ _
  | caller number =>
    dsimp only
    cases c.station.callers.find? fun x => x.number = number with
    | none => rfl
    | some x => exact attempt_station _ x

theorem perform_station (c : Casebook) (w : Station.Work) :
    (c.perform w).station = c.station.perform w := by
  cases w with
  | vanish => exact vanish_station c
  | finish | serve => exact act_station _ _
  | expiry t => exact fireExpiry_station c t
  | wake t => exact fireWake_station c t

/-- **Without its record, a casebook takes the steps of a station.** -/
theorem Step.station (h : Step c d) : Station.Step c.station d.station := by
  cases h with
  | issue number m v retry alive fresh =>
    rw [Casebook.issue, attempt_station]
    exact .issue number m v retry alive fresh
  | receive text alive =>
    rw [act_station]
    exact .receive text alive
  | unlink alive =>
    rw [act_station]
    exact .unlink alive
  | closing step alive =>
    rw [act_station]
    exact .closing step alive
  | takeUp alive =>
    rw [act_station]
    exact .takeUp alive
  | handle alive =>
    rw [act_station]
    exact .handle alive
  | forget number => exact .forget number
  | release => exact .release
  | work limit next =>
    rw [perform_station]
    exact .work limit next
  | pass time later idle => exact .pass time later idle
  | renumber n later => exact .renumber n later
  | retally tally => exact .retally tally

theorem Reachable.station (h : c.Reachable) : c.station.Reachable := by
  induction h with
  | opened => exact .opened ..
  | step _ step ih => exact ih.step step.station

/-- Every step of a station can be recorded. -/
theorem exists_step {t : Station} (h : Station.Step c.station t) :
    ∃ d, Step c d ∧ d.station = t := by
  cases h with
  | issue number m v retry alive fresh =>
    exact ⟨_, .issue number m v retry alive fresh, attempt_station _ _⟩
  | receive text alive => exact ⟨_, .receive text alive, act_station _ _⟩
  | unlink alive => exact ⟨_, .unlink alive, act_station _ _⟩
  | closing step alive => exact ⟨_, .closing step alive, act_station _ _⟩
  | takeUp alive => exact ⟨_, .takeUp alive, act_station _ _⟩
  | handle alive => exact ⟨_, .handle alive, act_station _ _⟩
  | forget number => exact ⟨_, .forget number, rfl⟩
  | release => exact ⟨_, .release, rfl⟩
  | work limit next => exact ⟨_, .work limit next, perform_station _ _⟩
  | pass time later idle => exact ⟨_, .pass time later idle, rfl⟩
  | renumber n later => exact ⟨_, .renumber n later, rfl⟩
  | retally tally => exact ⟨_, .retally tally, rfl⟩

end Casebook

/-- **Every run of a station can be recorded.** -/
theorem Station.Reachable.recorded {s : Station} (h : s.Reachable) :
    ∃ c : Casebook, c.Reachable ∧ c.station = s := by
  induction h with
  | opened => exact ⟨_, .opened .., rfl⟩
  | step _ step ih =>
    obtain ⟨c, reachable, rfl⟩ := ih
    obtain ⟨d, step, same⟩ := Casebook.exists_step step
    exact ⟨d, reachable.step step, same⟩

end ChargeLink

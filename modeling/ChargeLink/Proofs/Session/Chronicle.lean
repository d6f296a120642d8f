import ChargeLink.Catalog.V16
import ChargeLink.Session.Inbound
import Mathlib.Data.Nat.Notation
import Mathlib.Logic.Relation

/-!
# Chronicles of sessions

A chronicle is a session with the record of its life: what it was asked to
send, which texts it heard, and what it brought about at which time. Its steps
are the operations of the session, in any order. Where an operation lets others
in before it is done, it is several steps: a call leaves the slot and the slot is
handed on, the worker takes up a call and answers it, and a session that closes is
open no more, then has no calls, then no transport. Anything else may come in
between; only time stands still until the slot has been handed on, and it never
passes the deadline of an armed timer of the session.

The views of a log (`Log.starts`, `Log.settlements`, …) list what it says of
one kind of thing, the oldest first.
-/

namespace ChargeLink

namespace Supervisor

variable {α : Type}

/-- Every key is used once, and the next one has not been used. -/
structure Keyed (s : Supervisor α) : Prop where
  fresh : ∀ t ∈ s.armed, t.key < s.nextKey
  nodup : (s.armed.map Timer.key).Nodup

/-- The armed timers of a session. -/
def ofSession (s : Supervisor Expiry) (number : ℕ) : List (Timer Expiry) :=
  s.armed.filter fun t => t.task.session = number

end Supervisor

/-- What was brought about, with the times. -/
abbrev Log := List (ℕ × Effect)

namespace Log

/-- What a log tells of one kind of thing, given what a single entry tells of it. -/
def view {α : Type} (tells : ℕ × Effect → Option α) (l : Log) : List α :=
  l.filterMap tells

/-- The accepted sends with their times. -/
abbrev acceptances (l : Log) : List (ℕ × ℕ) :=
  l.view fun | (time, .accepted k) => some (k, time) | _ => none

/-- The started calls with their times. -/
abbrev starts (l : Log) : List (ℕ × ℕ) :=
  l.view fun | (time, .started k) => some (k, time) | _ => none

/-- The transmitted calls with their ids. -/
abbrev calls (l : Log) : List (ℕ × String) :=
  l.view fun | (_, .called k id) => some (k, id) | _ => none

/-- The outcomes of sends with their times. -/
abbrev settlements (l : Log) : List (ℕ × ℕ × Except CallFailure Value) :=
  l.view fun | (time, .settled k o) => some (k, time, o) | _ => none

/-- The texts handed to the transport. -/
abbrev texts (l : Log) : List String :=
  l.view fun | (_, .sent text) => some text | _ => none

/-- The published events. -/
abbrev events (l : Log) : List SessionEvent :=
  l.view fun | (_, .published e) => some e | _ => none

/-- The inbound calls that entered a handler, with the handler and the request. -/
abbrev entries (l : Log) : List (InboundCall × Handler × Value) :=
  l.view fun | (_, .entered c h r) => some (c, h, r) | _ => none

/-- The inbound calls whose handler has ended, with its answer. -/
abbrev returns (l : Log) : List (InboundCall × Answer) :=
  l.view fun | (_, .returned c a) => some (c, a) | _ => none

/-- The inbound calls that were answered or refused, with the result. -/
abbrev dispatches (l : Log) : List (InboundCall × Except DispatchFault Json) :=
  l.view fun | (_, .dispatched c r) => some (c, r) | _ => none

/-- The tickets of the settled sends. -/
abbrev settled (l : Log) : List ℕ :=
  l.view fun | (_, .settled k _) => some k | _ => none

/-- The calls that were transmitted and have no outcome, with their ids. -/
def unanswered (l : Log) : List (ℕ × String) :=
  l.calls.filter fun x => x.1 ∉ l.settled

variable {α : Type} (tells : ℕ × Effect → Option α) (l l' : Log) (x : ℕ × Effect)

@[simp]
theorem view_nil : view tells [] = [] :=
  rfl

@[simp]
theorem view_append : view tells (l ++ l') = view tells l ++ view tells l' :=
  List.filterMap_append

@[simp]
theorem view_cons : view tells (x :: l) = (tells x).toList ++ view tells l := by
  cases h : tells x <;> simp [view, h]

/-- The tickets of the outcomes are those of the settled sends. -/
theorem map_settlements : l.settlements.map Prod.fst = l.settled := by
  induction l with
  | nil => rfl
  | cons x l ih =>
    obtain ⟨time, e⟩ := x
    cases e <;> simp [ih]

theorem mem_settled {l : Log} {k time : ℕ} {o : Except CallFailure Value}
    (h : (k, time, o) ∈ l.settlements) : k ∈ l.settled := by
  rw [← map_settlements]
  exact List.mem_map_of_mem h

end Log

/-- A timer comes: it is disarmed, and its call fails if it is outstanding. Tells whether a call
has left the slot. -/
def Turn.ring (t : Turn) (timer : Timer Expiry) : Bool × Turn :=
  { t with timers := t.timers.abort timer.key }.lapse timer.task.call

/-- A session with the record of its life. -/
structure Chronicle where
  turn : Turn
  /-- How many calls have left the slot without its having been handed on. -/
  owed : ℕ
  /-- The requests that were to be sent; a ticket is a place in this list. -/
  asked : List (Message × Value)
  /-- The texts that came from the peer. -/
  heard : List String
  /-- What was brought about before the present moment. -/
  past : Log

namespace Chronicle

/-- The session. -/
abbrev session (c : Chronicle) : Session := c.turn.session

/-- The timers, those of other sessions among them. -/
abbrev timers (c : Chronicle) : Supervisor Expiry := c.turn.timers

/-- The present moment. -/
abbrev now (c : Chronicle) : ℕ := c.turn.now

/-- What was brought about so far. -/
def log (c : Chronicle) : Log :=
  c.past ++ c.turn.effects.map fun e => (c.now, e)

/-- The chronicle of a session that has just been opened. -/
def opened (number : ℕ) (chargePointId : String) (registry : Registry) (config : SessionConfig)
    (codec : Codec) (label : String) (timers : Supervisor Expiry) (now : ℕ) : Chronicle :=
  ⟨.openSession number chargePointId registry config codec label timers now, 0, [], [], []⟩

/-- A request is to be sent. -/
def send (c : Chronicle) (m : Message) (v : Value) : Chronicle :=
  { c with turn := (c.turn.send m v).2, asked := c.asked ++ [(m, v)] }

/-- A text comes from the peer. -/
def hear (c : Chronicle) (text : String) : Chronicle :=
  { c with
    turn := (c.turn.hear text).2
    owed := c.owed + (c.turn.hear text).1.toNat
    heard := c.heard ++ [text] }

/-- A timer comes. -/
def ring (c : Chronicle) (timer : Timer Expiry) : Chronicle :=
  { c with
    turn := (c.turn.ring timer).2
    owed := c.owed + (c.turn.ring timer).1.toNat }

/-- The slot is handed on. -/
def pump (c : Chronicle) : Chronicle :=
  { c with turn := c.turn.pump, owed := c.owed - 1 }

/-- The worker takes up the next inbound call, if it is idle. -/
def takeUp (c : Chronicle) : Chronicle :=
  { c with turn := c.turn.takeUp }

/-- The worker answers the call that it has taken up. -/
def handle (c : Chronicle) : Chronicle :=
  { c with turn := c.turn.handle }

/-- The worker takes up the next inbound call and answers it, if it is idle. -/
def serve (c : Chronicle) : Chronicle :=
  { c with turn := c.turn.serve }

/-- The running handler ends. -/
def finish (c : Chronicle) (answer : Answer) : Chronicle :=
  { c with turn := c.turn.finish answer }

/-- The transport goes away. -/
def unlink (c : Chronicle) : Chronicle :=
  { c with turn := c.turn.unlink }

/-- Somebody takes a step of closing the session. -/
def closing (c : Chronicle) (step : ClosingStep) : Chronicle :=
  { c with turn := c.turn.closing step }

/-- The session is told to close, and nothing else happens before it is closed. -/
def close (c : Chronicle) : Chronicle :=
  { c with turn := c.turn.close.2 }

/-- Other sessions have armed and disarmed timers of theirs. -/
def share (c : Chronicle) (timers : Supervisor Expiry) : Chronicle :=
  { c with turn := { c.turn with timers } }

/-- Time passes. -/
def wait (c : Chronicle) (ms : ℕ) : Chronicle :=
  { c with turn := { c.turn with now := c.now + ms, effects := [] }, past := c.log }

/-- A step in the life of a session. -/
inductive Step : Chronicle → Chronicle → Prop
  | send {c} (m : Message) (v : Value) : Step c (c.send m v)
  | hear {c} (text : String) : Step c (c.hear text)
  | ring {c} (timer : Timer Expiry) (armed : timer ∈ c.timers.ofSession c.session.number)
      (due : timer.deadline ≤ c.now) : Step c (c.ring timer)
  | pump {c} (owed : 0 < c.owed) : Step c c.pump
  | takeUp {c} : Step c c.takeUp
  | handle {c} : Step c c.handle
  | finish {c} (answer : Answer) : Step c (c.finish answer)
  | unlink {c} : Step c c.unlink
  | closing {c} (step : ClosingStep) : Step c (c.closing step)
  | share {c} (timers : Supervisor Expiry) (keyed : timers.Keyed)
      (loop : timers.hasLoop = c.timers.hasLoop)
      (own : timers.ofSession c.session.number = c.timers.ofSession c.session.number) :
      Step c (c.share timers)
  | wait {c} (ms : ℕ) (handedOn : c.owed = 0)
      (punctual : ∀ t ∈ c.timers.ofSession c.session.number, c.now + ms ≤ t.deadline) :
      Step c (c.wait ms)

/-- The chronicle `d` may follow `c` after any number of steps. -/
abbrev Steps : Chronicle → Chronicle → Prop :=
  Relation.ReflTransGen Step

/-- The chronicles of all runs of all sessions. -/
inductive Reachable : Chronicle → Prop
  | opened (number : ℕ) (chargePointId : String) (registry : Registry) (config : SessionConfig)
      (codec : Codec) (label : String) (timers : Supervisor Expiry) (now : ℕ)
      (keyed : timers.Keyed) (unused : timers.ofSession number = []) :
      Reachable (opened number chargePointId registry config codec label timers now)
  | step {c d} : Reachable c → Step c d → Reachable d

theorem Reachable.steps {c d : Chronicle} (hc : Reachable c) (h : Steps c d) : Reachable d := by
  induction h with
  | refl => exact hc
  | tail _ h ih => exact ih.step h

/-- Taking up a call and answering it at once is a run. -/
theorem steps_serve (c : Chronicle) : Steps c c.serve :=
  .tail (.single .takeUp) .handle

/-- Closing takes its steps one after the other, or none of them. -/
theorem close_eq (c : Chronicle) :
    c.close = c ∨ c.close = ((c.closing .start).closing .abandon).closing .finish := by
  unfold close Turn.close
  split
  · exact .inl rfl
  · exact .inr rfl

/-- Closing a session at once is a run. -/
theorem steps_close (c : Chronicle) : Steps c c.close := by
  rcases c.close_eq with h | h <;> rw [h]
  exact .tail (.tail (.single (.closing .start)) (.closing .abandon)) (.closing .finish)

/-! ## A run -/

/-- A session with ten milliseconds for an answer and room for one more call. -/
def brief : Chronicle :=
  opened 0 "CP-1" (.empty .v16 .chargePoint) ⟨10, .queue, 1, .standard⟩ .json "own" (.create true) 0

/-- Two calls are sent at once. -/
def twoSent : Chronicle :=
  (brief.send V16.heartbeat (.record [])).send V16.heartbeat (.record [])

/-- The timer of the first of them. -/
def firstTimer : Timer Expiry :=
  ⟨0, 10, ⟨0, "own#1"⟩⟩

/-- The first gets no answer in time, and the slot has not been handed on. -/
def missed : Chronicle :=
  (twoSent.wait 10).ring firstTimer

theorem Reachable.twoSent : twoSent.Reachable :=
  ((Reachable.opened 0 "CP-1" (.empty .v16 .chargePoint) ⟨10, .queue, 1, .standard⟩ .json "own"
    (.create true) 0 ⟨by simp [Supervisor.create], .nil⟩ rfl).step (.send _ _)).step (.send _ _)

theorem Reachable.missed : missed.Reachable := by
  have own : Chronicle.twoSent.timers.ofSession 0 = [firstTimer] := rfl
  refine (twoSent.step (.wait 10 rfl ?_)).step (.ring firstTimer ?_ (Nat.le_refl 10))
  · intro t ht
    rw [show t = firstTimer from List.mem_singleton.1 (own ▸ ht)]
    exact Nat.le_refl 10
  · exact List.mem_cons_self

end Chronicle

end ChargeLink

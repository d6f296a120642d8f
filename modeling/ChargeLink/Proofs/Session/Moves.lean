import ChargeLink.Proofs.Session.Steps

/-!
# Moves

A run of a session is told by its moves: what happens to it and what it does
next. Some moves belong to own calls: sends, answers of the peer, timers and the
handing on of the slot. Some belong to the peer: its calls, its texts that are
no frames, and the worker. Losing the transport, closing, the timers of other
sessions and the passing of time belong to both.

* `Chronicle.steps_iff`: moves tell all runs.
-/

namespace ChargeLink

variable {c d : Chronicle}

/-- What happens to a session, or what it does next. -/
inductive Move where
  | send (m : Message) (v : Value)
  | hear (text : String)
  | ring (timer : Timer Expiry)
  | pump
  | takeUp
  | handle
  | finish (answer : Answer)
  | unlink
  | closing (step : ClosingStep)
  | share (timers : Supervisor Expiry)
  | wait (ms : ℕ)

/-- Who a move is for. -/
inductive Side where
  | own
  | peer
  deriving DecidableEq

namespace Supervisor

/-- The timers without those of a session. -/
def besides (s : Supervisor Expiry) (number : ℕ) : Supervisor Expiry :=
  { s with armed := s.armed.filter fun t => t.task.session ≠ number }

theorem Keyed.besides {s : Supervisor Expiry} (h : s.Keyed) (number : ℕ) :
    (s.besides number).Keyed := by
  refine ⟨fun t ht => h.fresh t (List.mem_filter.1 ht).1, ?_⟩
  exact h.nodup.sublist (List.filter_sublist.map _)

theorem ofSession_besides (s : Supervisor Expiry) (number : ℕ) :
    (s.besides number).ofSession number = [] := by
  simp [ofSession, besides, List.filter_filter]

end Supervisor

namespace Move

/-- The side that a move belongs to; `none` if it belongs to both. -/
def side? (codec : Codec) : Move → Option Side
  | .send .. | .ring _ | .pump => some .own
  | .hear text => if codec.answers text then some .own else some .peer
  | .takeUp | .handle | .finish _ => some .peer
  | .unlink | .closing _ | .share _ | .wait _ => none

/-- The move with no timers of that session around. -/
def clear (number : ℕ) : Move → Move
  | .share timers => .share (timers.besides number)
  | m => m

/-- The moves without the calls of the peer, its texts that are no frames, and the worker. -/
def withoutPeer (codec : Codec) (moves : List Move) : List Move :=
  moves.filter fun m => m.side? codec ≠ some .peer

/-- The moves without own sends, the answers to them, their timers and the handing on of the
slot. -/
def withoutOwn (codec : Codec) (number : ℕ) (moves : List Move) : List Move :=
  (moves.filter fun m => m.side? codec ≠ some .own).map (clear number)

end Move

namespace Chronicle

/-- The chronicle after a move. -/
def after (c : Chronicle) : Move → Chronicle
  | .send m v => c.send m v
  | .hear text => c.hear text
  | .ring timer => c.ring timer
  | .pump => c.pump
  | .takeUp => c.takeUp
  | .handle => c.handle
  | .finish answer => c.finish answer
  | .unlink => c.unlink
  | .closing step => c.closing step
  | .share timers => c.share timers
  | .wait ms => c.wait ms

/-- Whether a move is possible. -/
def Allows (c : Chronicle) : Move → Prop
  | .ring timer => timer ∈ c.timers.ofSession c.session.number ∧ timer.deadline ≤ c.now
  | .pump => 0 < c.owed
  | .share timers => timers.Keyed ∧ timers.hasLoop = c.timers.hasLoop ∧
      timers.ofSession c.session.number = c.timers.ofSession c.session.number
  | .wait ms => c.owed = 0 ∧ ∀ t ∈ c.timers.ofSession c.session.number, c.now + ms ≤ t.deadline
  | _ => True

/-- The chronicle after several moves. -/
def run (c : Chronicle) (moves : List Move) : Chronicle :=
  moves.foldl after c

/-- Whether several moves are possible, one after the other. -/
def Admits : Chronicle → List Move → Prop
  | _, [] => True
  | c, m :: moves => c.Allows m ∧ (c.after m).Admits moves

/-- A step is a move that is possible. -/
theorem step_iff : Step c d ↔ ∃ m, c.Allows m ∧ c.after m = d := by
  constructor
  · intro h
    cases h with
    | send m v => exact ⟨.send m v, trivial, rfl⟩
    | hear text => exact ⟨.hear text, trivial, rfl⟩
    | ring timer armed due => exact ⟨.ring timer, ⟨armed, due⟩, rfl⟩
    | pump owed => exact ⟨.pump, owed, rfl⟩
    | takeUp => exact ⟨.takeUp, trivial, rfl⟩
    | handle => exact ⟨.handle, trivial, rfl⟩
    | finish answer => exact ⟨.finish answer, trivial, rfl⟩
    | unlink => exact ⟨.unlink, trivial, rfl⟩
    | closing step => exact ⟨.closing step, trivial, rfl⟩
    | share timers keyed loop own => exact ⟨.share timers, ⟨keyed, loop, own⟩, rfl⟩
    | wait ms handedOn punctual => exact ⟨.wait ms, ⟨handedOn, punctual⟩, rfl⟩
  · rintro ⟨m, allowed, rfl⟩
    cases m with
    | send m v => exact .send m v
    | hear text => exact .hear text
    | ring timer => exact .ring timer allowed.1 allowed.2
    | pump => exact .pump allowed
    | takeUp => exact .takeUp
    | handle => exact .handle
    | finish answer => exact .finish answer
    | unlink => exact .unlink
    | closing step => exact .closing step
    | share timers => exact .share timers allowed.1 allowed.2.1 allowed.2.2
    | wait ms => exact .wait ms allowed.1 allowed.2

theorem Allows.step {m : Move} (h : c.Allows m) : Step c (c.after m) :=
  step_iff.2 ⟨m, h, rfl⟩

/-- **Moves tell all runs.** -/
theorem steps_iff : Steps c d ↔ ∃ moves, c.Admits moves ∧ c.run moves = d := by
  constructor
  · intro h
    induction h using Relation.ReflTransGen.head_induction_on with
    | refl => exact ⟨[], trivial, rfl⟩
    | head step _ ih =>
      obtain ⟨m, allowed, rfl⟩ := step_iff.1 step
      obtain ⟨moves, admitted, run⟩ := ih
      exact ⟨m :: moves, ⟨allowed, admitted⟩, run⟩
  · rintro ⟨moves, admitted, rfl⟩
    induction moves generalizing c with
    | nil => exact .refl
    | cons m moves ih => exact .head admitted.1.step (ih admitted.2)

end Chronicle

end ChargeLink

import ChargeLink.Binary64.Basic

/-!
# Sending again

After a failed attempt the next one waits: the first pause times the multiplier
for each attempt before the last one, at most the longest pause. The product is
taken in doubles, so an overflow is capped and a product that is no number
counts as the cap; a negative one is no pause at all. Pauses are rounded to
nanoseconds, a half to the even one, and a clock of milliseconds rounds them up.
-/

namespace ChargeLink

/-- How often and after which pauses a call is sent again. Times are in milliseconds. -/
structure Backoff where
  maxAttempts : Nat
  initialDelay : Nat
  multiplier : Binary64
  maxDelay : Nat
  deriving DecidableEq

namespace Backoff

/-- Three attempts, half a second apart at first, twice as long each time, half a minute at most. -/
def standard : Backoff :=
  ⟨3, 500, .ofNat 2, 30000⟩

/-- A single attempt. -/
def once : Backoff :=
  { standard with maxAttempts := 1 }

/-- Milliseconds as seconds: the whole seconds and the rest, each rounded to a double. -/
def seconds (ms : Nat) : Binary64 :=
  (Binary64.ofNat (ms / 1000)).addAbs
    ((Binary64.ofNat (ms % 1000 * 1000000)).divNat 1000000000)

/-- Seconds that are not negative, in nanoseconds. -/
def nanoseconds (x : Binary64) : Nat :=
  let (m, e) := x.significand
  if 0 ≤ e then m * Nat.pow 2 e.toNat * 1000000000
  else Binary64.roundDiv (m * 1000000000) (Nat.pow 2 (-e).toNat)

/-- The pause after that many attempts in nanoseconds; a negative one is none. -/
def delayAfter (b : Backoff) (attempt : Nat) : Option Nat :=
  let exponent := min (attempt - 1) 0x7FFFFFFF
  let wanted := (seconds b.initialDelay).mul (b.multiplier.pow exponent)
  let pause := wanted.minimum (seconds b.maxDelay)
  if pause.lt (.zero false) then none else some (nanoseconds pause)

/-- The pause after that many attempts on a clock of milliseconds. -/
def pauseAfter (b : Backoff) (attempt : Nat) : Option Nat :=
  (b.delayAfter attempt).map fun ns => (ns + 999999) / 1000000

/-- How many attempts there are at most. -/
def attempts (b : Backoff) : Nat :=
  max b.maxAttempts 1

/-- What follows a failed attempt. -/
inductive Next where
  | giveUp
  | pause (ms : Nat)
  /-- The pause would be negative. -/
  | undefined
  deriving DecidableEq

/-- What follows the failure of an attempt, counted from one, that is or is not worth another. -/
def next (b : Backoff) (attempt : Nat) (worthwhile : Bool) : Next :=
  if b.attempts ≤ attempt || !worthwhile then .giveUp
  else
    match b.pauseAfter attempt with
    | some ms => .pause ms
    | none => .undefined

/-- The course of an operation that is tried again: its result, when each attempt was made, and the
errors that were asked about. -/
structure Course (ε α : Type) where
  result : Except ε α
  attemptsAt : List Nat
  asked : List ε
  finish : Nat

/-- Tries an operation, from the given attempt and time on, at most `fuel` times more. -/
def courseFrom {ε α : Type} (b : Backoff) (operation : Nat → Except ε α) (worthwhile : ε → Bool) :
    (fuel attempt time : Nat) → Option (Course ε α)
  | 0, _, _ => none
  | fuel + 1, attempt, time =>
    match operation attempt with
    | .ok a => some ⟨.ok a, [time], [], time⟩
    | .error e =>
      let asked := if attempt < b.attempts then [e] else []
      match b.next attempt (worthwhile e) with
      | .giveUp => some ⟨.error e, [time], asked, time⟩
      | .undefined => none
      | .pause ms =>
        (courseFrom b operation worthwhile fuel (attempt + 1) (time + ms)).map fun c =>
          { c with attemptsAt := time :: c.attemptsAt, asked := asked ++ c.asked }

/-- Tries an operation until it succeeds, fails for good, or the attempts are used up. Attempts
count from one. None if a pause would be negative. -/
def course {ε α : Type} (b : Backoff) (operation : Nat → Except ε α) (worthwhile : ε → Bool) :
    Option (Course ε α) :=
  b.courseFrom operation worthwhile b.attempts 1 0

end Backoff

end ChargeLink

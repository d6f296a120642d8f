/-!
# Shutting down

A signal is triggered once and wakes whoever waits for it. A cleanup waits for
the signal, and then it has a bounded time: one that takes longer is abandoned
when its time is up.
-/

namespace ChargeLink

/-- A cleanup: how long it takes, and since when it has been running. -/
structure Cleanup where
  name : String
  takes : Nat
  since : Option Nat

/-- A cleanup that has ended, by itself or because its time was up. -/
structure CleanupEnd where
  name : String
  completed : Bool
  time : Nat
  deriving DecidableEq, Repr

/-- The process-wide signal with what waits for it. Times are in milliseconds. -/
structure Shutdown where
  timeout : Nat
  now : Nat
  triggered : Bool
  waiting : List String
  cleanups : List Cleanup

/-- Half a minute for cleanups. -/
def defaultCleanupTimeout : Nat := 30000

namespace Shutdown

/-- A signal that has not been triggered. -/
def create (timeout : Nat) : Shutdown :=
  ⟨timeout, 0, false, [], []⟩

/-- Somebody starts to wait for the signal. -/
def wait (s : Shutdown) (name : String) : Shutdown :=
  { s with waiting := s.waiting ++ [name] }

/-- A cleanup starts to wait for the signal. -/
def addCleanup (s : Shutdown) (name : String) (takes : Nat) : Shutdown :=
  let since := if s.triggered then some s.now else none
  { s with cleanups := s.cleanups ++ [⟨name, takes, since⟩] }

/-- Triggers the signal; the cleanups start. -/
def trigger (s : Shutdown) : Shutdown :=
  { s with
    triggered := true
    cleanups := s.cleanups.map fun c => { c with since := c.since <|> some s.now } }

/-- Lets time pass. -/
def advance (s : Shutdown) (ms : Nat) : Shutdown :=
  { s with now := s.now + ms }

/-- Those woken by the signal, who no longer wait. -/
def takeWoken (s : Shutdown) : List String × Shutdown :=
  if s.triggered then (s.waiting, { s with waiting := [] }) else ([], s)

/-- How a cleanup ends, if it does by the given time. -/
def cleanupEnd? (timeout now : Nat) (c : Cleanup) : Option CleanupEnd :=
  match c.since with
  | none => none
  | some since =>
    let time := since + min c.takes timeout
    if time ≤ now then some ⟨c.name, c.takes ≤ timeout, time⟩ else none

/-- The cleanups that have ended, the earliest first. -/
def takeEnded (s : Shutdown) : List CleanupEnd × Shutdown :=
  let ended := s.cleanups.filterMap (cleanupEnd? s.timeout s.now)
  (ended.mergeSort fun a b => a.time ≤ b.time,
    { s with cleanups := s.cleanups.filter fun c => (cleanupEnd? s.timeout s.now c).isNone })

end Shutdown

end ChargeLink

import ChargeLink.Session.Backoff

/-!
# Session settings
-/

namespace ChargeLink

/-- What becomes of a call while another one is outstanding. -/
inductive BusyPolicy where
  /-- It waits in a bounded queue. -/
  | queue
  /-- It fails at once. -/
  | reject
  deriving DecidableEq, Repr

/-- How a session treats its own calls. Times are whole milliseconds. -/
structure SessionConfig where
  /-- How long a call waits for its answer. The moment at which it has waited long enough has to be
  one that the clock can tell, less than `2 ^ 63` seconds: a process with a longer timeout stops
  with an error when it starts a call. -/
  callTimeout : Nat
  busyPolicy : BusyPolicy
  queueCapacity : Nat
  retry : Backoff
  deriving DecidableEq

/-- Half a minute for an answer, and at most sixteen calls in the queue. -/
def SessionConfig.standard : SessionConfig :=
  ⟨30000, .queue, 16, .standard⟩

end ChargeLink

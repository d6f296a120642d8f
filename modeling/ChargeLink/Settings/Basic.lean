import ChargeLink.Net.Address
import ChargeLink.Session.Config

/-!
# Settings

What can be set about a server: where it listens, how its sessions treat their
calls, how it logs, and where its counters are published. Every setting has a
default.
-/

namespace ChargeLink

/-- Where the server listens, and how many seconds its shutdown may take. -/
structure ServerSettings where
  host : String
  port : Nat
  shutdownTimeout : Nat
  deriving DecidableEq, Repr

/-- How sessions treat their own calls. -/
structure CallSettings where
  /-- The seconds until a call without an answer fails. -/
  timeoutSecs : Nat
  busyPolicy : BusyPolicy
  queueCapacity : Nat
  /-- How often a request of a transaction is sent at most. -/
  retryAttempts : Nat
  /-- The milliseconds before such a request is sent for the second time. -/
  retryIntervalMs : Nat
  deriving DecidableEq, Repr

/-- What is logged, and in which form. -/
structure LogSettings where
  level : String
  format : String
  deriving DecidableEq, Repr

/-- Whether counters are published, and at which address. -/
structure MetricsSettings where
  enabled : Bool
  listen : String
  deriving DecidableEq, Repr

/-- All settings. -/
structure Settings where
  server : ServerSettings
  session : CallSettings
  logging : LogSettings
  metrics : MetricsSettings
  deriving DecidableEq, Repr

namespace Settings

/-- The settings if nothing is set. -/
def standard : Settings where
  server := ⟨"0.0.0.0", 9000, 30⟩
  session := ⟨30, .queue, 16, 3, 1000⟩
  logging := ⟨"info", "text"⟩
  metrics := ⟨false, "0.0.0.0:9100"⟩

end Settings

/-- The address at which the server listens. -/
def ServerSettings.address (s : ServerSettings) : String :=
  s.host ++ ":" ++ toString s.port

/-- The address at which counters are published. -/
def MetricsSettings.address? (m : MetricsSettings) : Option SocketAddress :=
  SocketAddress.ofText? m.listen

/-- The pauses between attempts. -/
def CallSettings.backoff (c : CallSettings) : Backoff :=
  { Backoff.standard with maxAttempts := c.retryAttempts, initialDelay := c.retryIntervalMs }

/-- The settings of one session. -/
def CallSettings.sessionConfig (c : CallSettings) : SessionConfig :=
  ⟨c.timeoutSecs * 1000, c.busyPolicy, c.queueCapacity, c.backoff⟩

/-- The policy as it is written in a document. -/
def BusyPolicy.word : BusyPolicy → String
  | queue => "queue"
  | reject => "reject"

/-- The policy as it is shown to people. -/
def BusyPolicy.title : BusyPolicy → String
  | queue => "Queue"
  | reject => "Reject"

end ChargeLink

import ChargeLink.Settings.Basic

/-!
# Settings that make sense

Values that have the right type may still make no sense: a call that fails
before it can be answered, a queue without places, counters published at
something that is no address.
-/

namespace ChargeLink

/-- What can be wrong with settings. -/
inductive SettingsFault where
  /-- The document cannot be read from where it is kept. -/
  | unreadable
  /-- It is no document, or a value has the wrong type. -/
  | malformed
  /-- It cannot be written to where it is to be kept. -/
  | unwritable
  /-- The value of a key makes no sense. -/
  | invalid (key reason : String)
  deriving DecidableEq, Repr

namespace SettingsFault

/-- The name of the fault. -/
def name : SettingsFault → String
  | unreadable => "Read"
  | malformed => "Parse"
  | unwritable => "Write"
  | invalid .. => "Invalid"

/-- The fault in words, for a value that makes no sense. -/
def message? : SettingsFault → Option String
  | invalid key reason => some ("Invalid value for " ++ key ++ ": " ++ reason)
  | _ => none

/-- Calls without time for an answer. -/
def noTimeout : SettingsFault :=
  .invalid "session.call_timeout_secs" "must be greater than zero"

/-- A queue without places. -/
def noQueue : SettingsFault :=
  .invalid "session.queue_capacity" "must be greater than zero when busy_policy = \"queue\""

/-- An address that is none. -/
def badListen : SettingsFault :=
  .invalid "metrics.listen" SocketAddress.syntaxMessage

end SettingsFault

/-- The address at which counters are published, or what is wrong with it. -/
def MetricsSettings.address (m : MetricsSettings) : Except SettingsFault SocketAddress :=
  match m.address? with
  | some a => .ok a
  | none => .error .badListen

/-- The first thing that makes no sense. -/
def Settings.fault? (s : Settings) : Option SettingsFault :=
  if s.session.timeoutSecs = 0 then some .noTimeout
  else if s.session.busyPolicy = .queue ∧ s.session.queueCapacity = 0 then some .noQueue
  else if s.metrics.enabled ∧ s.metrics.address?.isNone then some .badListen
  else none

/-- Settings that make sense as they are, others as their first fault. -/
def Settings.check (s : Settings) : Except SettingsFault Settings :=
  match s.fault? with
  | some f => .error f
  | none => .ok s

namespace Settings

/-- The defaults make sense. -/
theorem fault?_standard : standard.fault? = none := by
  simp [fault?, standard]

/-- Checked settings are the settings themselves. -/
theorem check_eq_ok_iff {s t : Settings} : s.check = .ok t ↔ s.fault? = none ∧ t = s := by
  cases h : s.fault? with
  | none => simp [check, h, eq_comm]
  | some f => simp [check, h]

end Settings

end ChargeLink

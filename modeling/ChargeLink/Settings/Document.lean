import ChargeLink.Settings.Check
import ChargeLink.Toml.Printer
import ChargeLink.Toml.Reader

/-!
# Settings in documents

Settings are kept as a document with a table for each of their four parts.
Missing keys take their defaults and unknown ones are skipped, but a value of
the wrong type spoils the document. A part may also be given as an array, whose
items stand for its keys in order.
-/

namespace ChargeLink

namespace Toml

/-- The entries of a part with the given keys. -/
def part? (keys : List String) : Toml → Option (List (String × Toml))
  | .table entries => some entries
  | .array items => some (keys.zip items)
  | .moment => some []
  | _ => none

/-- A text. -/
def text? : Toml → Option String
  | .text s => some s
  | _ => none

/-- A flag. -/
def flag? : Toml → Option Bool
  | .flag b => some b
  | _ => none

/-- A number from zero on and below a bound. -/
def natBelow? (bound : Nat) : Toml → Option Nat
  | .int n => if 0 ≤ n ∧ n < bound then some n.toNat else none
  | _ => none

/-- Whether there is nothing in a table or an array. -/
def isEmptyPart : Toml → Bool
  | .table [] => true
  | .array [] => true
  | _ => false

/-- A policy by its name; the name may also be the only key of a table, with nothing in it. -/
def busyPolicy? : Toml → Option BusyPolicy
  | .text s => if s = "queue" then some .queue else if s = "reject" then some .reject else none
  | .table [(name, v)] =>
    if !v.isEmptyPart then none
    else if name = "queue" then some .queue
    else if name = "reject" then some .reject
    else none
  | _ => none

/-- The value of a key read by a reader, or its default if the key is missing. -/
def setting {α : Type} (entries : List (String × Toml)) (key : String) (read : Toml → Option α)
    (default : α) : Option α :=
  match lookup key entries with
  | none => some default
  | some v => read v

end Toml

namespace Settings

/-- The keys of the server's part. -/
def serverKeys : List String := ["host", "port", "shutdown_timeout"]

/-- The keys of the sessions' part. -/
def sessionKeys : List String :=
  ["call_timeout_secs", "busy_policy", "queue_capacity", "transaction_retry_attempts",
    "transaction_retry_interval_ms"]

/-- The keys of the part about logging. -/
def loggingKeys : List String := ["level", "format"]

/-- The keys of the part about counters. -/
def metricsKeys : List String := ["enabled", "listen"]

/-- Where the server listens. -/
def serverOf? (v : Toml) : Option ServerSettings := do
  let es ← v.part? serverKeys
  let d := standard.server
  let host ← Toml.setting es "host" Toml.text? d.host
  let port ← Toml.setting es "port" (Toml.natBelow? 0x10000) d.port
  let timeout ← Toml.setting es "shutdown_timeout" (Toml.natBelow? 0x10000000000000000) d.shutdownTimeout
  return ⟨host, port, timeout⟩

/-- How sessions treat their calls. -/
def sessionOf? (v : Toml) : Option CallSettings := do
  let es ← v.part? sessionKeys
  let d := standard.session
  let timeout ← Toml.setting es "call_timeout_secs" (Toml.natBelow? 0x10000000000000000) d.timeoutSecs
  let policy ← Toml.setting es "busy_policy" Toml.busyPolicy? d.busyPolicy
  let capacity ← Toml.setting es "queue_capacity" (Toml.natBelow? 0x10000000000000000) d.queueCapacity
  let attempts ←
    Toml.setting es "transaction_retry_attempts" (Toml.natBelow? 0x100000000) d.retryAttempts
  let interval ←
    Toml.setting es "transaction_retry_interval_ms" (Toml.natBelow? 0x10000000000000000) d.retryIntervalMs
  return ⟨timeout, policy, capacity, attempts, interval⟩

/-- What is logged. -/
def loggingOf? (v : Toml) : Option LogSettings := do
  let es ← v.part? loggingKeys
  let d := standard.logging
  return ⟨← Toml.setting es "level" Toml.text? d.level, ← Toml.setting es "format" Toml.text? d.format⟩

/-- Whether and where counters are published. -/
def metricsOf? (v : Toml) : Option MetricsSettings := do
  let es ← v.part? metricsKeys
  let d := standard.metrics
  return ⟨← Toml.setting es "enabled" Toml.flag? d.enabled,
    ← Toml.setting es "listen" Toml.text? d.listen⟩

/-- The settings of a document, whether they make sense or not. -/
def ofEntries? (es : List (String × Toml)) : Option Settings := do
  let d := standard
  let server ← Toml.setting es "server" serverOf? d.server
  let session ← Toml.setting es "session" sessionOf? d.session
  let logging ← Toml.setting es "logging" loggingOf? d.logging
  let metrics ← Toml.setting es "metrics" metricsOf? d.metrics
  return ⟨server, session, logging, metrics⟩

/-- The settings in a text, whether they make sense or not. -/
def read (text : String) : Except SettingsFault Settings :=
  match (Toml.ofText? text).bind ofEntries? with
  | some s => .ok s
  | none => .error .malformed

/-- The settings in a text, which have to make sense. -/
def ofText (text : String) : Except SettingsFault Settings :=
  (read text).bind check

/-- The settings as sections, each with all its keys. -/
def sections (s : Settings) : List TomlSection :=
  [⟨"server", serverKeys.zip
      [.text s.server.host, .nat s.server.port, .nat s.server.shutdownTimeout]⟩,
    ⟨"session", sessionKeys.zip
      [.nat s.session.timeoutSecs, .text s.session.busyPolicy.word, .nat s.session.queueCapacity,
        .nat s.session.retryAttempts, .nat s.session.retryIntervalMs]⟩,
    ⟨"logging", loggingKeys.zip [.text s.logging.level, .text s.logging.format]⟩,
    ⟨"metrics", metricsKeys.zip [.flag s.metrics.enabled, .text s.metrics.listen]⟩]

/-- The document of the settings. -/
def text (s : Settings) : String :=
  TomlSection.renderAll s.sections

end Settings

end ChargeLink

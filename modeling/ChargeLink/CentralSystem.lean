import ChargeLink.Catalog.Basic
import ChargeLink.Dispatch.Registry

/-!
# A central system that accepts

A small central system for both versions: it accepts every charge point, every
identifier and every transaction, and gives transactions of the older version
the numbers from one on.
-/

namespace ChargeLink.CentralSystem

/-- The seconds between two heartbeats. -/
def heartbeatInterval : Int := 300

/-- The status of everything. -/
def accepted : Value :=
  .choice "Accepted"

/-- A handler that takes no time and always replies; it learns how often it has been entered. -/
def replying (m : Message) (reply : Nat → Value) : Handler :=
  ⟨m, fun entered _ => ⟨0, .reply (reply entered)⟩⟩

/-- A confirmation without members. -/
def nothing : Nat → Value :=
  fun _ => .record []

/-- The handlers for the older version at a given time. -/
def handlers16 (now : Timestamp) : List Handler :=
  [replying V16.bootNotification fun _ => .record [("status", accepted), ("currentTime", .instant now),
      ("interval", .int heartbeatInterval)],
    replying V16.heartbeat fun _ => .record [("currentTime", .instant now)],
    replying V16.authorize fun _ => .record [("idTagInfo", statusOnly "Accepted")],
    replying V16.statusNotification nothing,
    replying V16.startTransaction fun entered => .record [("idTagInfo", statusOnly "Accepted"),
      ("transactionId", .int (entered + 1))],
    replying V16.stopTransaction nothing,
    replying V16.meterValues nothing]

/-- The handlers for the newer version at a given time. -/
def handlers201 (now : Timestamp) : List Handler :=
  [replying V201.bootNotification fun _ => .record [("currentTime", .instant now),
      ("interval", .int heartbeatInterval), ("status", accepted)],
    replying V201.heartbeat fun _ => .record [("currentTime", .instant now)],
    replying V201.authorize fun _ => .record [("idTokenInfo", statusOnly "Accepted")],
    replying V201.statusNotification nothing,
    replying V201.transactionEvent nothing]

/-- The handlers of a version. -/
def handlers (now : Timestamp) : Version → List Handler
  | .v16 => handlers16 now
  | .v201 => handlers201 now

/-- The registry of a version. -/
def registry (now : Timestamp) (v : Version) : Registry :=
  (Registry.empty v .centralSystem).registerAll (handlers now v)

end ChargeLink.CentralSystem

import ChargeLink.Json.Value
import ChargeLink.Protocol.Role
import ChargeLink.Protocol.Version

/-!
# Session events

What a session tells whoever follows it: that it was opened or closed, and that
an answer matched no call.
-/

namespace ChargeLink

/-- What happened to a session. -/
inductive EventKind where
  | opened (version : Version) (role : Role)
  | closed (abandoned : Nat)
  | unmatched (id : String)
  deriving DecidableEq, Repr

/-- An event of the session of a charge point. -/
structure SessionEvent where
  chargePointId : String
  kind : EventKind
  deriving DecidableEq, Repr

namespace EventKind

/-- The tag of the event in its JSON form. -/
def tag : EventKind → String
  | opened .. => "opened"
  | closed _ => "closed"
  | unmatched _ => "unmatched_response"

/-- The topic of the event. -/
def topic : EventKind → String
  | opened .. => "session_opened"
  | closed _ => "session_closed"
  | unmatched _ => "unmatched_response"

end EventKind

/-- The role as a tag. -/
def Role.tag : Role → String
  | .chargePoint => "ChargePoint"
  | .centralSystem => "CentralSystem"

/-- The event in JSON. -/
def SessionEvent.toJson (e : SessionEvent) : Json :=
  let own : List (String × Json) := match e.kind with
    | .opened version role => [("version", .str version.name), ("role", .str role.tag)]
    | .closed abandoned => [("abandoned_calls", .nat abandoned)]
    | .unmatched id => [("unique_id", .str id)]
  .object ([("type", .str e.kind.tag), ("charge_point_id", .str e.chargePointId)] ++ own)

end ChargeLink

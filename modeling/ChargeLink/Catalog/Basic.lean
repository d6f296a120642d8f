import ChargeLink.Catalog.V16
import ChargeLink.Catalog.V201
import ChargeLink.Protocol.Version

/-!
# The catalog

The typed messages of each version, found by action, and values of shared types
built from the members that matter most.
-/

namespace ChargeLink

/-- The typed messages of a version. -/
def Version.messages : Version → List Message
  | .v16 => V16.messages
  | .v201 => V201.messages

/-- The message of an action. -/
def Version.message? (v : Version) (action : String) : Option Message :=
  v.messages.find? fun m => m.action == action

/-- The announcement of a charge point with nothing but its vendor and model. -/
def V16.announcement (vendor model : String) : Value :=
  .record [("chargePointVendor", .text vendor), ("chargePointModel", .text model)]

/-- What is known of an identifier: its status alone. In both versions it is called so. -/
def statusOnly (status : String) : Value :=
  .record [("status", .choice status)]

/-- An identifier given out by the central system. -/
def V201.centralToken (token : String) : Value :=
  .record [("idToken", .text token), ("type", .choice "Central")]

end ChargeLink

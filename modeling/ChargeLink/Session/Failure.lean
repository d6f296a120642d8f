import ChargeLink.Schema.Fault

/-!
# Failures of own calls

Why a call issued by a session brought no confirmation. Only two of the causes
may pass if the same request is sent again.
-/

namespace ChargeLink

/-- Why a call failed. -/
inductive CallFailure where
  /-- Another call holds the slot, and no place is left to wait. -/
  | busy
  /-- The session is no longer open. -/
  | closing
  /-- No answer came in time. -/
  | timeout
  /-- The peer refused the call. -/
  | refused (code : ErrorCode) (description : String) (details : Json)
  /-- The request breaks a rule or cannot be encoded. -/
  | badRequest (fault : PayloadFault)
  /-- The answer does not decode or breaks a rule. -/
  | badConfirmation (fault : PayloadFault)
  /-- The call could not be transmitted. -/
  | transport (reason : String)

namespace CallFailure

/-- The name of the failure. -/
def name : CallFailure → String
  | busy => "Busy"
  | closing => "ConnectionClosing"
  | timeout => "Timeout"
  | refused .. => "CallError"
  | badRequest _ => "InvalidRequest"
  | badConfirmation _ => "InvalidConfirmation"
  | transport _ => "Transport"

/-- The failure in words. -/
def message : CallFailure → String
  | busy => "Another call is already outstanding on this session"
  | closing => "Session is closing"
  | timeout => "No response before the deadline"
  | refused code description _ => "CallError " ++ code.name ++ ": " ++ description
  | badRequest fault => "Outgoing request rejected: " ++ fault.message
  | badConfirmation fault => "Invalid confirmation: " ++ fault.message
  | transport reason => "Transport error: " ++ reason

/-- Whether the same request may succeed later. -/
def isTransient : CallFailure → Bool
  | timeout => true
  | busy => true
  | _ => false

end CallFailure

end ChargeLink

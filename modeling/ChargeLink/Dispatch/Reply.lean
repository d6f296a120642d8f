import ChargeLink.Dispatch.Registry
import ChargeLink.Frame.Basic
import ChargeLink.Schema.Decode
import ChargeLink.Schema.Validate

/-!
# Answering calls

An inbound call is answered by exactly one frame. `accept` finds the handler,
decodes the payload and checks its rules; only a request that passes enters the
handler. `conclude` turns the handler's end into a payload, once the
confirmation has passed its own rules. `dispatch` is the two with the handler's
answer between them.
-/

namespace ChargeLink

/-- Why a call is refused. -/
inductive DispatchFault where
  /-- Nobody serves the action. -/
  | unserved (code : ErrorCode)
  /-- The payload does not decode or breaks a rule. -/
  | badRequest (fault : PayloadFault)
  /-- The handler failed or panicked. -/
  | failed (code : ErrorCode)
  /-- The handler's confirmation breaks a rule or cannot be encoded. -/
  | badConfirmation

namespace DispatchFault

/-- The label of the fault in counters. -/
def label : DispatchFault → String
  | unserved _ => "unknown_action"
  | badRequest _ => "invalid_request"
  | failed _ => "handler_error"
  | badConfirmation => "invalid_confirmation"

/-- The code of the fault. -/
def code : DispatchFault → ErrorCode
  | unserved code => code
  | badRequest fault => fault.code
  | failed code => code
  | badConfirmation => .internalError

/-- The details of the fault; only a bad request has any. -/
def details : DispatchFault → Json
  | badRequest fault => fault.details
  | _ => Json.empty

end DispatchFault

/-- The label of an answered call in counters. -/
def outcomeLabel : Except DispatchFault Json → String
  | .ok _ => "ok"
  | .error fault => fault.label

namespace Registry

/-- Finds the handler of a call and decodes and checks its request. -/
def accept (r : Registry) (action : String) (payload : Json) :
    Except DispatchFault (Handler × Value) :=
  match r.lookup action with
  | .error code => .error (.unserved code)
  | .ok h =>
    match h.message.request.decode payload with
    | .error fault => .error (.badRequest fault.report)
    | .ok request =>
      match h.message.request.validate request with
      | some fault => .error (.badRequest fault)
      | none => .ok (h, request)

/-- The payload of a handler's answer. -/
def conclude (message : Message) : Answer → Except DispatchFault Json
  | .panic => .error (.failed .internalError)
  | .fail error => .error (.failed error.code)
  | .reply confirmation =>
    match message.confirmation.validate confirmation with
    | some _ => .error .badConfirmation
    | none =>
      match message.confirmation.encode confirmation with
      | .error _ => .error .badConfirmation
      | .ok payload => .ok payload

/-- The frame that answers a call. -/
def reply (r : Registry) (id : String) : Except DispatchFault Json → Frame
  | .ok payload => .result id payload
  | .error fault => .refusal id fault.code r.version fault.details

/-- The label of an action in counters: what nobody serves is named by the peer and stays out. -/
def actionLabel (r : Registry) (action : String) : String :=
  if r.contains action then action else "unknown"

/-- Answers a call; `entered` tells how often the action's handler has been entered before. -/
def dispatch (r : Registry) (entered : Nat) (id action : String) (payload : Json) : Frame :=
  r.reply id <| match r.accept action payload with
    | .error fault => .error fault
    | .ok (h, request) => conclude h.message (h.react entered request).answer

end Registry

end ChargeLink

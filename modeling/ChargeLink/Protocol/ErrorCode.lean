import ChargeLink.Protocol.Version

/-!
# Error codes

The closed set of codes a call can be refused with. Two codes are spelled
differently by the two versions and two have no counterpart in the older one,
so the wire spelling depends on the version. Reading knows every spelling, and
what it does not know is a generic error (`ofWire_toWire` says which codes come
back).
-/

namespace ChargeLink

/-- Why a call was refused. -/
inductive ErrorCode where
  /-- The action is not known. -/
  | notImplemented
  /-- The action is known but not served. -/
  | notSupported
  /-- The receiver failed. -/
  | internalError
  /-- The frame is incomplete. -/
  | protocolError
  /-- A security issue came up. -/
  | securityError
  /-- The payload is malformed. -/
  | formationViolation
  /-- A member's value is outside its range. -/
  | propertyConstraintViolation
  /-- A required member is missing. -/
  | occurrenceConstraintViolation
  /-- A member has the wrong type. -/
  | typeConstraintViolation
  /-- The frame's message type is not known. -/
  | messageTypeNotSupported
  /-- The call is no valid request. -/
  | rpcFrameworkError
  /-- Any other fault. -/
  | genericError
  deriving DecidableEq, Repr

namespace ErrorCode

/-- The name of the code, the same for every version. -/
def name : ErrorCode → String
  | notImplemented => "NotImplemented"
  | notSupported => "NotSupported"
  | internalError => "InternalError"
  | protocolError => "ProtocolError"
  | securityError => "SecurityError"
  | formationViolation => "FormationViolation"
  | propertyConstraintViolation => "PropertyConstraintViolation"
  | occurrenceConstraintViolation => "OccurrenceConstraintViolation"
  | typeConstraintViolation => "TypeConstraintViolation"
  | messageTypeNotSupported => "MessageTypeNotSupported"
  | rpcFrameworkError => "RpcFrameworkError"
  | genericError => "GenericError"

/-- The spelling of the code in frames of a version. The older version writes the closest code it
has for the two that it lacks. -/
def toWire (version : Version) (code : ErrorCode) : String :=
  match version, code with
  | .v16, occurrenceConstraintViolation => "OccurenceConstraintViolation"
  | .v16, messageTypeNotSupported => "NotImplemented"
  | .v16, rpcFrameworkError => "ProtocolError"
  | .v201, formationViolation => "FormatViolation"
  | _, code => code.name

/-- The code of any known spelling; every other text is a generic error. -/
def ofWire (s : String) : ErrorCode :=
  if s = "NotImplemented" then notImplemented
  else if s = "NotSupported" then notSupported
  else if s = "InternalError" then internalError
  else if s = "ProtocolError" then protocolError
  else if s = "SecurityError" then securityError
  else if s = "FormationViolation" ∨ s = "FormatViolation" then formationViolation
  else if s = "PropertyConstraintViolation" then propertyConstraintViolation
  else if s = "OccurrenceConstraintViolation" ∨ s = "OccurenceConstraintViolation" then occurrenceConstraintViolation
  else if s = "TypeConstraintViolation" then typeConstraintViolation
  else if s = "MessageTypeNotSupported" then messageTypeNotSupported
  else if s = "RpcFrameworkError" then rpcFrameworkError
  else genericError

/-- The description sent along with the code. It depends on the code alone. -/
def description : ErrorCode → String
  | notImplemented => "Requested Action is not known by receiver"
  | notSupported => "Requested Action is recognized but not supported by the receiver"
  | internalError =>
    "An internal error occurred and the receiver was not able to process the requested Action successfully"
  | protocolError => "Payload for Action is incomplete"
  | securityError =>
    "During the processing of Action a security issue occurred preventing receiver from completing the Action successfully"
  | formationViolation =>
    "Payload for Action is syntactically incorrect or not conform the PDU structure for Action"
  | propertyConstraintViolation =>
    "Payload is syntactically correct but at least one field contains an invalid value"
  | occurrenceConstraintViolation =>
    "Payload for Action is syntactically correct but at least one of the fields violates occurrence constraints"
  | typeConstraintViolation =>
    "Payload for Action is syntactically correct but at least one of the fields violates data type constraints"
  | messageTypeNotSupported =>
    "A message with a Message Type Number received that is not supported by this implementation"
  | rpcFrameworkError => "Content of the call is not a valid RPC Request"
  | genericError => "Any other error not covered by the previous ones"

/-- The code that the peer understands from a code's wire spelling. -/
def received (version : Version) (code : ErrorCode) : ErrorCode :=
  match version, code with
  | .v16, messageTypeNotSupported => notImplemented
  | .v16, rpcFrameworkError => protocolError
  | _, code => code

theorem ofWire_toWire (version : Version) (code : ErrorCode) :
    ofWire (code.toWire version) = code.received version := by
  cases version <;> cases code <;> decide

end ErrorCode

end ChargeLink

import ChargeLink.Json.Value
import ChargeLink.Protocol.ErrorCode

/-!
# Frames

One message on the wire is a JSON array that starts with the number of its
kind: a call, the result of a call, or the refusal of one. `Frame.toJson` is
that array. A text that is no frame has a `FrameFault`, in the order in which
the checks are made.
-/

namespace ChargeLink

/-- The kind of a frame. -/
inductive FrameKind where
  | call
  | result
  | error
  deriving DecidableEq, Repr

namespace FrameKind

/-- The number a frame of this kind starts with. -/
def number : FrameKind → Nat
  | call => 2
  | result => 3
  | error => 4

/-- The name of the kind. -/
def name : FrameKind → String
  | call => "Call"
  | result => "CallResult"
  | error => "CallError"

/-- How many elements a frame of this kind has at least. A refusal may lack its details. -/
def least : FrameKind → Nat
  | call => 4
  | result => 3
  | error => 4

/-- The kind of a number. -/
def ofNumber? : Nat → Option FrameKind
  | 2 => some call
  | 3 => some result
  | 4 => some error
  | _ => none

theorem ofNumber?_number (k : FrameKind) : ofNumber? k.number = some k := by
  cases k <;> rfl

end FrameKind

/-- One message. -/
inductive Frame where
  /-- A request for an action. -/
  | call (id action : String) (payload : Json)
  /-- The answer to the call of that id. -/
  | result (id : String) (payload : Json)
  /-- The refusal of the call of that id; `code` is spelled as on the wire. -/
  | error (id code description : String) (details : Json)

namespace Frame

/-- The kind of the frame. -/
def kind : Frame → FrameKind
  | call .. => .call
  | result .. => .result
  | error .. => .error

/-- The id of the call the frame makes, answers or refuses. -/
def id : Frame → String
  | call id _ _ => id
  | result id _ => id
  | error id _ _ _ => id

/-- The payload or the details. -/
def payload : Frame → Json
  | call _ _ p => p
  | result _ p => p
  | error _ _ _ d => d

/-- Equality of frames. -/
def beq : Frame → Frame → Bool
  | call i a p, call j b q => i == j && a == b && p == q
  | result i p, result j q => i == j && p == q
  | error i c s d, error j e t f => i == j && c == e && s == t && d == f
  | _, _ => false

instance : BEq Frame := ⟨beq⟩

/-- The refusal of a call with a code: spelled for the version, with the code's own description. -/
def refusal (id : String) (code : ErrorCode) (version : Version) (details : Json) : Frame :=
  error id (code.toWire version) code.description details

/-- The array that stands for the frame on the wire. -/
def toJson (f : Frame) : Json :=
  let kind := Json.nat f.kind.number
  match f with
  | call id action payload => .arr [kind, .str id, .str action, payload]
  | result id payload => .arr [kind, .str id, payload]
  | error id code description details =>
    .arr [kind, .str id, .str code, .str description, details]

end Frame

/-- A text element that a frame has to hold. -/
inductive FrameText where
  | uniqueId
  | action
  | errorCode
  deriving DecidableEq, Repr

/-- The name of the element. -/
def FrameText.name : FrameText → String
  | uniqueId => "uniqueId"
  | action => "action"
  | errorCode => "errorCode"

/-- Why a text is no frame. -/
inductive FrameFault where
  | notJson
  | notArray
  | empty
  | badKind
  | unknownKind (number : Nat)
  | tooShort (kind : FrameKind) (got : Nat)
  | notText (element : FrameText)
  deriving DecidableEq, Repr

namespace FrameFault

/-- The name of the fault. -/
def name : FrameFault → String
  | notJson => "Json"
  | notArray => "NotAnArray"
  | empty => "Empty"
  | badKind => "BadMessageType"
  | unknownKind _ => "UnknownMessageType"
  | tooShort .. => "TooShort"
  | notText _ => "NotAString"

/-- The code that a faulty call is refused with. -/
def code : FrameFault → ErrorCode
  | unknownKind _ => .messageTypeNotSupported
  | tooShort .. => .protocolError
  | _ => .formationViolation

/-- The fault in words; the fault of a text that is no JSON has no fixed wording. -/
def message? : FrameFault → Option String
  | notJson => none
  | notArray => some "Frame is not a JSON array"
  | empty => some "Frame array is empty"
  | badKind => some "Message type is not a number"
  | unknownKind n => some ("Unknown message type " ++ toString n)
  | tooShort kind got =>
    some (kind.name ++ " needs " ++ toString kind.least ++ " elements, got " ++ toString got)
  | notText element => some (element.name ++ " is not a string")

end FrameFault

end ChargeLink

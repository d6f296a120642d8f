import ChargeLink.Protocol.ErrorCode
import ChargeLink.Schema.Shape
import ChargeLink.Text.Quoted
import ChargeLink.Time.Reader

/-!
# Faults of payloads

A payload that does not decode has a `DecodeFault`; one that breaks a rule, or
a value that cannot be encoded, is reported in the same form, `PayloadFault`: a
code, the place and rule at fault where they are known, and a reason. The code
of a `DecodeFault` follows from its cause.
-/

namespace ChargeLink

/-- Why a payload could not be decoded. -/
inductive DecodeFault where
  /-- The payload is no object. -/
  | notObject
  /-- A required member is missing. -/
  | missing (key : String)
  /-- A value of the wrong kind. -/
  | wrongType (found : Json) (wanted : String)
  /-- A value of the right kind that does not fit. -/
  | wrongValue (found : Json) (wanted : String)
  /-- A text that is none of the choices. -/
  | unknownVariant (found : String) (variants : List String)
  /-- An array that stands for a record ends too soon. -/
  | wrongLength (got : Nat) (record : String) (members : Nat)
  /-- An array that stands for a record is too long. -/
  | extraElements (got : Nat)
  /-- A text that is no timestamp. -/
  | badInstant (fault : TimeFault)

/-- A payload fault as it is reported. -/
structure PayloadFault where
  code : ErrorCode
  field : Option String
  constraint : Option String
  value : Option Json
  reason : String

namespace PayloadFault

/-- A fault with a reason alone. -/
def plain (code : ErrorCode) (reason : String) : PayloadFault :=
  ⟨code, none, none, none, reason⟩

/-- The fault in words. -/
def message (f : PayloadFault) : String :=
  f.code.name ++ ": " ++ f.reason

/-- The details sent along with the refusal of a call: what is known of place, rule and value. -/
def details (f : PayloadFault) : Json :=
  .object ((f.field.map fun s => ("field", Json.str s)).toList ++
    (f.constraint.map fun s => ("constraint", Json.str s)).toList ++
    (f.value.map fun v => ("value", v)).toList)

end PayloadFault

namespace DecodeFault

/-- A value in a message. -/
def describe : Json → String
  | .null => "null"
  | .bool b => "boolean " ++ "`" ++ (if b then "true" else "false") ++ "`"
  | .int n => "integer " ++ "`" ++ toString n ++ "`"
  | .float x => "floating point " ++ "`" ++ x.text ++ "`"
  | .str s => "string " ++ Text.diagnostic s
  | .arr _ => "sequence"
  | .obj _ => "map"

/-- A name between backticks. -/
def ticked (s : String) : String :=
  "`" ++ s ++ "`"

/-- The choices in a message: one, two, or a list. -/
def oneOf : List String → String
  | [] => "there are no variants"
  | [a] => "expected " ++ ticked a
  | [a, b] => "expected " ++ ticked a ++ " or " ++ ticked b
  | vs => "expected one of " ++ ", ".intercalate (vs.map ticked)

/-- The fault in words. -/
def reason : DecodeFault → String
  | notObject => "payload is not a JSON object"
  | missing key => "missing field " ++ ticked key
  | wrongType found wanted => "invalid type: " ++ describe found ++ ", expected " ++ wanted
  | wrongValue found wanted => "invalid value: " ++ describe found ++ ", expected " ++ wanted
  | unknownVariant found variants =>
    "unknown variant " ++ ticked found ++ ", " ++ oneOf variants
  | wrongLength got record members =>
    "invalid length " ++ toString got ++ ", expected struct " ++ record ++ " with " ++
      toString members ++ (if members = 1 then " element" else " elements")
  | extraElements got =>
    "invalid length " ++ toString got ++ ", expected fewer elements in array"
  | badInstant fault => fault.message

/-- The code of the fault. -/
def code : DecodeFault → ErrorCode
  | missing _ => .occurrenceConstraintViolation
  | wrongType .. => .typeConstraintViolation
  | wrongValue .. => .typeConstraintViolation
  | unknownVariant .. => .typeConstraintViolation
  | _ => .formationViolation

/-- The fault as it is reported: a missing member is named, by its own name alone. -/
def report (f : DecodeFault) : PayloadFault :=
  match f with
  | missing key => ⟨f.code, some key, some "required", none, f.reason⟩
  | wrongType .. => ⟨f.code, none, some "type", none, f.reason⟩
  | wrongValue .. => ⟨f.code, none, some "type", none, f.reason⟩
  | unknownVariant .. => ⟨f.code, none, some "type", none, f.reason⟩
  | _ => .plain f.code f.reason

end DecodeFault

end ChargeLink

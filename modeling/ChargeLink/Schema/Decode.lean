import ChargeLink.Schema.Fault

/-!
# Decoding payloads

`Shape.decode` reads a payload by its shape. Members are read by ascending key,
so of several bad ones the one with the smallest key is reported; only when all
that are present are good, the first required one that is missing is reported,
in the order of declaration. Unknown members are ignored, `null` stands for an
optional member that is absent, and a record within a payload may also be given
as the array of all its members.
-/

namespace ChargeLink

/-- What became of a declared member. -/
inductive MemberResult where
  | absent
  | bad (fault : DecodeFault)
  | good (value : Value)

namespace Shape

/-- What a payload of this shape should have been, in words. -/
def expectation : Shape → String
  | text => "a string"
  | int32 => "i32"
  | real => "f64"
  | flag => "a boolean"
  | instant => "an RFC 3339 formatted date and time string"
  | choice _ => "string or map"
  | list _ => "a sequence"
  | record name _ => "struct " ++ name

/-- A choice by its name. -/
def decodeVariant (variants : List String) (v : String) : Except DecodeFault Value :=
  if variants.contains v then .ok (.choice v) else .error (.unknownVariant v variants)

/-- A choice: its name, or an object with that name for its only key and `null` for its value. -/
def decodeChoice (variants : List String) : Json → Except DecodeFault Value
  | .str v => decodeVariant variants v
  | .obj [(v, content)] => do
    let choice ← decodeVariant variants v
    if content.isNull then .ok choice else .error (.wrongType content "unit")
  | .obj members => .error (.wrongValue (.obj members) "map with a single key")
  | found => .error (.wrongType found (expectation (choice variants)))

/-- The bad member with the smallest key. -/
def firstBad : List (Member × MemberResult) → Option (String × DecodeFault)
  | [] => none
  | (m, .bad fault) :: r =>
    match firstBad r with
    | some (key, other) => if key < m.key then some (key, other) else some (m.key, fault)
    | none => some (m.key, fault)
  | _ :: r => firstBad r

/-- The first required member that is absent. -/
def firstMissing : List (Member × MemberResult) → Option String
  | [] => none
  | (m, .absent) :: r => if m.optional then firstMissing r else some m.key
  | _ :: r => firstMissing r

/-- The members that are good. -/
def goodMembers : List (Member × MemberResult) → List (String × Value)
  | [] => []
  | (m, .good v) :: r => (m.key, v) :: goodMembers r
  | _ :: r => goodMembers r

/-- The record of its members' results. -/
def assemble (results : List (Member × MemberResult)) : Except DecodeFault Value :=
  match firstBad results with
  | some (_, fault) => .error fault
  | none =>
    match firstMissing results with
    | some key => .error (.missing key)
    | none => .ok (.record (goodMembers results))

/-- The result of a member that is present, by the reader of its shape. -/
def memberResult (m : Member) (decode : Json → Except DecodeFault Value) (given : Json) :
    MemberResult :=
  if m.optional && given.isNull then .absent
  else
    match decode given with
    | .ok v => .good v
    | .error e => .bad e

mutual
/-- Reads a payload of this shape. -/
def decode : Shape → Json → Except DecodeFault Value
  | text, .str s => .ok (.text s)
  | int32, .int n =>
    if -0x80000000 ≤ n ∧ n < 0x80000000 then .ok (.int n) else .error (.wrongValue (.int n) "i32")
  | real, .int n => .ok (.real (.ofInt n))
  | real, .float x => .ok (.real x)
  | flag, .bool b => .ok (.flag b)
  | instant, .str s =>
    match Timestamp.ofText s with
    | .ok t => .ok (.instant t)
    | .error e => .error (.badInstant e)
  | choice variants, given => decodeChoice variants given
  | list item, .arr items => (items.mapM (decode item)).map .list
  | record _ members, .obj given => assemble (objectResults members given)
  | record name members, .arr items => do
    let results ← arrayResults name members.length members 0 items
    if members.length < items.length then .error (.extraElements items.length)
    else assemble results
  | shape, found => .error (.wrongType found shape.expectation)

/-- The results of the declared members among those of an object. -/
def objectResults : List (Member × Shape) → List (String × Json) → List (Member × MemberResult)
  | [], _ => []
  | (m, shape) :: r, given =>
    let result := match Json.lookup m.key given with
      | some v => memberResult m (decode shape) v
      | none => .absent
    (m, result) :: objectResults r given

/-- The results of the declared members among the elements of an array, from the given position
on. The first bad element ends the reading, and so does the end of the array. -/
def arrayResults (name : String) (total : Nat) :
    List (Member × Shape) → Nat → List Json → Except DecodeFault (List (Member × MemberResult))
  | [], _, _ => .ok []
  | (_, _) :: _, i, [] => .error (.wrongLength i name total)
  | (m, shape) :: r, i, v :: items =>
    match memberResult m (decode shape) v with
    | .bad fault => .error fault
    | result => do
      let rest ← arrayResults name total r (i + 1) items
      return (m, result) :: rest
end

end Shape

/-- Decodes a whole payload, which has to be an object. -/
def PayloadType.decode (t : PayloadType) (payload : Json) : Except DecodeFault Value :=
  match payload with
  | .obj _ => t.shape.decode payload
  | _ => .error .notObject

/-- Encodes a value as a payload, unless the type refuses it. -/
def PayloadType.encode (t : PayloadType) (value : Value) : Except PayloadFault Json :=
  match t.refuse value with
  | some reason => .error (.plain .internalError reason)
  | none => .ok value.encode

end ChargeLink

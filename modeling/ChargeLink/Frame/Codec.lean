import ChargeLink.Frame.Basic
import ChargeLink.Json.Printer
import ChargeLink.Json.Reader

/-!
# Frames as text

`Frame.ofText` reads a frame: it takes more elements than it needs, a refusal
without details, and `null` for an empty result. `Frame.salvage?` recovers
number and id from a text that is no frame, so that it can be refused. A
`Codec` is the pair of reader and writer a session uses.
-/

namespace ChargeLink

namespace Frame

/-- The text element at a position. -/
def textAt (items : List Json) (i : Nat) (element : FrameText) : Except FrameFault String :=
  match (items[i]?).bind Json.text? with
  | some s => .ok s
  | none => .error (.notText element)

/-- The frame of an array of a known kind, long enough for it. -/
def ofItems (kind : FrameKind) (items : List Json) : Except FrameFault Frame := do
  let id ← textAt items 1 .uniqueId
  match kind with
  | .call =>
    let action ← textAt items 2 .action
    return call id action (Json.orNull items[3]?)
  | .result =>
    let payload := Json.orNull items[2]?
    return result id (if payload.isNull then Json.empty else payload)
  | .error =>
    let code ← textAt items 2 .errorCode
    let description := ((items[3]?).bind Json.text?).getD ""
    return error id code description (items[4]?.getD Json.empty)

/-- The frame that a JSON value stands for. -/
def ofJson (v : Json) : Except FrameFault Frame :=
  match v with
  | .arr [] => .error .empty
  | .arr (first :: rest) =>
    match first.word? with
    | none => .error .badKind
    | some n =>
      match FrameKind.ofNumber? n with
      | none => .error (.unknownKind n)
      | some kind =>
        if rest.length + 1 < kind.least then .error (.tooShort kind (rest.length + 1))
        else ofItems kind (first :: rest)
  | _ => .error .notArray

/-- The frame that a text stands for. -/
def ofText (s : String) : Except FrameFault Frame :=
  match Json.ofText? s with
  | some v => ofJson v
  | none => .error .notJson

/-- The text of the frame. -/
def text (f : Frame) : String :=
  f.toJson.render

/-- The number and the id at the start of a text, where both can be read. -/
def salvage? (s : String) : Option (Nat × String) :=
  match Json.ofText? s with
  | some (.arr (first :: second :: _)) =>
    match first.word?, second.text? with
    | some n, some id => some (n, id)
    | _, _ => none
  | _ => none

/-- Whether a text that is no frame is refused aloud. What claims to be a result or a refusal
never is, so that two ends cannot keep refusing each other's refusals. -/
def answerable? (s : String) : Option String :=
  match salvage? s with
  | some (n, id) =>
    if n = FrameKind.result.number ∨ n = FrameKind.error.number then none else some id
  | none => none

end Frame

/-- How a session reads and writes frames. -/
structure Codec where
  decode : String → Except FrameFault Frame
  encode : Frame → String

/-- Frames as plain JSON. -/
def Codec.json : Codec := ⟨Frame.ofText, Frame.text⟩

end ChargeLink

import ChargeLink.Frame.Codec
import ChargeLink.Proofs.Json.ReadBack

/-!
# Frames come back from their text

A frame is an array around its payload, so the payload may nest one level less
than a reader allows. An empty result comes back as an object without members.

* `Frame.ofText_received`: a frame with finite doubles is received.
-/

namespace ChargeLink

/-- How deep the payload of a frame may nest. -/
def Frame.payloadDepth : ℕ := 126

/-- Frames that can be read back from their text. -/
structure Frame.Plain (D : Binary64 → Prop) (f : Frame) : Prop where
  payload : f.payload.Plain D payloadDepth
  present : f.payload.isNull = false

/-- What the one codec writes, the other reads. -/
def Codec.ReadBy (D : Binary64 → Prop) (writer reader : Codec) : Prop :=
  ∀ f : Frame, f.Plain D → reader.decode (writer.encode f) = .ok f

namespace Frame

variable {D : Binary64 → Prop} {f : Frame}

/-- The array of a frame is as plain as its payload. -/
theorem plain_toJson (payload : f.payload.Plain D payloadDepth) :
    f.toJson.Plain D Json.maxDepth := by
  -- beside the payload there are only a small number and texts
  have kind : (Json.nat f.kind.number).Plain D payloadDepth := by
    have small : f.kind.number < 5 := by cases f.kind <;> decide
    exact Json.Plain.int (by omega) (by omega)
  cases f with
  | call id action p | result id p | error id code description p =>
    refine Json.Plain.arr (n := payloadDepth) ?_
    simp only [List.forall_mem_cons, Json.Plain.str, true_and]
    exact ⟨kind, payload, by simp⟩

theorem word?_number (k : FrameKind) : (Json.nat k.number).word? = some k.number := by
  cases k <;> simp [Json.nat, Json.word?, FrameKind.number]

/-- The frame as it is received: an empty result has become an object without members. -/
def received : Frame → Frame
  | result id payload => result id (if payload.isNull then .empty else payload)
  | f => f

theorem received_of_present (present : f.payload.isNull = false) : f.received = f := by
  cases f with
  | call | error => rfl
  | result id p =>
    simp only [payload] at present
    simp [received, present]

/-- The array of a frame is read as the frame that is received. -/
theorem ofJson_toJson (f : Frame) : ofJson f.toJson = .ok f.received := by
  have word := word?_number f.kind
  have known := FrameKind.ofNumber?_number f.kind
  cases f with
  | call id action p | result id p | error id code description p =>
    simp only [kind] at word known
    simp [ofJson, toJson, kind, word, known, FrameKind.least, ofItems, textAt, Json.text?,
      Json.orNull, received, bind, Except.bind, pure, Except.pure]

/-- **A frame with finite doubles is received.** -/
theorem ofText_received (payload : f.payload.Plain Json.Finite payloadDepth) :
    ofText f.text = .ok f.received := by
  rw [ofText, text, Json.ofText?_render (plain_toJson payload)]
  exact ofJson_toJson f

/-- A frame with finite doubles and a payload is read back. -/
theorem ofText_text (plain : f.Plain Json.Finite) : ofText f.text = .ok f := by
  rw [ofText_received plain.payload, received_of_present plain.present]

theorem json_readBy_finite : Codec.json.ReadBy Json.Finite .json :=
  fun _ => ofText_text

theorem json_readBy : Codec.json.ReadBy Json.NoDouble .json :=
  fun _ plain => json_readBy_finite _ ⟨plain.payload.imp fun _ no => no.elim, plain.present⟩

end Frame

end ChargeLink

import ChargeLink.Catalog.Basic
import ChargeLink.Proofs.Dispatch.Pipeline
import ChargeLink.Proofs.Frame.ReadBack
import ChargeLink.Proofs.Schema.RoundTrip
import Mathlib.Data.List.Nodup

/-!
# Vocabularies

The messages that two ends may exchange: no two for one action, no record with
two members of one name, and no payload that nests too deep for a reader. The
catalog of each version is a vocabulary.

* `Vocabulary.accept_encoded`: a registry accepts an encoded request as the value it was encoded
  from, unless nobody serves it.
-/

namespace ChargeLink

/-- The payloads of a type are told apart by their members, and are not too deep. -/
def PayloadType.Readable (t : PayloadType) : Prop :=
  t.shape.distinct = true ∧ t.shape.depth ≤ Frame.payloadDepth

instance (t : PayloadType) : Decidable t.Readable :=
  inferInstanceAs (Decidable (_ ∧ _))

/-- The messages that two ends may exchange. -/
structure Vocabulary where
  messages : List Message
  actions : (messages.map Message.action).Nodup
  readable : ∀ m ∈ messages, m.request.Readable ∧ m.confirmation.Readable

/-- The catalog of a version. -/
def Version.vocabulary (v : Version) : Vocabulary where
  messages := v.messages
  actions := by cases v <;> decide +kernel
  readable := by cases v <;> decide +kernel

namespace PayloadType

variable {D : Binary64 → Prop} {t : PayloadType} {v : Value} {p : Json}

/-- The value belongs to the type, and its doubles satisfy `D`. -/
def Typed (D : Binary64 → Prop) (t : PayloadType) (v : Value) : Prop :=
  t.shape.Typed D v

theorem encode_eq (h : t.encode v = .ok p) : p = v.encode := by
  unfold encode at h
  split at h
  · cases h
  · cases h
    rfl

/-- The payload of a value of the type decodes to the value. -/
theorem decode_encode (readable : t.Readable) (typed : t.Typed D v) :
    t.decode v.encode = .ok v := by
  cases v with
  | record given =>
    have back := Shape.decode_encode t.shape (.record given) readable.1 typed
    simpa [decode, Value.encode, Json.object] using back
  | _ => simp [Typed, shape, Shape.Admits] at typed

theorem plain (readable : t.Readable) (typed : t.Typed D v) :
    v.encode.Plain D Frame.payloadDepth :=
  (Shape.Typed.plain t.shape v typed).mono readable.2

end PayloadType

/-- The handlers serve messages of the vocabulary. -/
def Registry.Speaks (r : Registry) (w : Vocabulary) : Prop :=
  ∀ h ∈ r.handlers, h.message ∈ w.messages

/-- What a handler's end comes to, if it is a payload. -/
theorem Registry.conclude_ok {m : Message} {answer : Answer} {p : Json}
    (h : Registry.conclude m answer = .ok p) : ∃ v, answer = .reply v ∧ p = v.encode ∧
      m.confirmation.validate v = none := by
  obtain ⟨v, same, valid, encoded⟩ := conclude_eq_ok_iff.1 h
  exact ⟨v, same, PayloadType.encode_eq encoded, valid⟩

/-- A fault without details, whose code both versions can spell. -/
structure DispatchFault.Bare (fault : DispatchFault) : Prop where
  details : fault.details = Json.empty
  code : ∀ version, fault.code.received version = fault.code

theorem Registry.conclude_error {m : Message} {answer : Answer} {fault : DispatchFault}
    (h : Registry.conclude m answer = .error fault) : fault.Bare := by
  cases answer with
  | panic =>
    cases h
    exact ⟨rfl, fun version => by cases version <;> rfl⟩
  | fail error =>
    cases h
    exact ⟨rfl, fun version => by cases version <;> cases error <;> rfl⟩
  | reply v =>
    -- a reply that breaks its rules or cannot be encoded is a bad confirmation
    have bad : fault = .badConfirmation := by
      simp only [Registry.conclude] at h
      repeat' split at h
      all_goals cases h
      all_goals rfl
    rw [bad]
    exact ⟨rfl, fun version => by cases version <;> rfl⟩

theorem Registry.lookup_error {r : Registry} {action : String} {code : ErrorCode}
    (h : r.lookup action = .error code) : (DispatchFault.unserved code).Bare := by
  unfold Registry.lookup at h
  split at h
  · cases h
  · cases h
    refine ⟨rfl, fun version => ?_⟩
    cases version <;> simp only [DispatchFault.code] <;> split <;> rfl

namespace Vocabulary

variable {w : Vocabulary} {r : Registry} {m m' : Message} {v : Value} {D : Binary64 → Prop}

/-- An action belongs to one message. -/
theorem eq_of_action (hm : m ∈ w.messages) (hm' : m' ∈ w.messages) (same : m.action = m'.action) :
    m = m' :=
  List.inj_on_of_nodup_map w.actions hm hm' same

/-- The handler found for a message is one of that message. -/
theorem lookup_message (speaks : r.Speaks w) (hm : m ∈ w.messages) {h : Handler}
    (found : r.lookup m.action = .ok h) : h.message = m := by
  -- a handler is found by its action, and that belongs to one message
  obtain ⟨registered, serves⟩ := Registry.lookup_eq_ok_iff.1 found
  exact w.eq_of_action (speaks h registered) hm serves

/-- **A request that keeps its rules is accepted as it was encoded**, if it is served at all. -/
theorem accept_encoded (speaks : r.Speaks w) (hm : m ∈ w.messages) (typed : m.request.Typed D v)
    (valid : m.request.validate v = none) :
    (∃ fault, fault.Bare ∧ r.accept m.action v.encode = .error fault) ∨
      ∃ h, h.message = m ∧ r.accept m.action v.encode = .ok (h, v) := by
  unfold Registry.accept
  cases found : r.lookup m.action with
  | error code => exact .inl ⟨.unserved code, Registry.lookup_error found, rfl⟩
  | ok h =>
    have same := lookup_message speaks hm found
    have back := PayloadType.decode_encode (w.readable m hm).1 typed
    refine .inr ⟨h, same, ?_⟩
    simp [same, back, valid]

end Vocabulary

end ChargeLink

import ChargeLink.Proofs.Dispatch.Pipeline
import ChargeLink.Proofs.Json.Plain
import ChargeLink.Proofs.Schema.Places

/-!
# What a refusal gives away

A handler that does something wrong is told to the peer by a code, and the code
is all there is to tell: the texts of its failures, the difference between a
failure and a panic, and what is wrong with a confirmation stay behind. Of a bad
request the peer is told the place, the rule and the value: a name of the
protocol, a word of four, and a part of what the peer itself has sent.

* `Answer.confirms_or_faults`: a handler ends with a confirmation, or it faults with a code.
* `Registry.dispatch_of_faults`: the code decides the frame.
* `Registry.accept_discloses`: what the peer is told of a call that is turned away.
* `Frame.Discreet`: a refusal tells no more than its code and what its details may hold.
-/

namespace ChargeLink

/-- The handler of a message does something wrong, and this is the code for it. -/
inductive Answer.Faults (m : Message) : Answer → ErrorCode → Prop
  | internal (text : String) : Faults m (.fail (.internal text)) .internalError
  | unsupported : Faults m (.fail .notSupported) .notSupported
  | security (text : String) : Faults m (.fail (.security text)) .securityError
  | panic : Faults m .panic .internalError
  | invalid {confirmation fault} (breaks : m.confirmation.validate confirmation = some fault) :
      Faults m (.reply confirmation) .internalError
  | unencodable {confirmation fault} (keeps : m.confirmation.validate confirmation = none)
      (fails : m.confirmation.encode confirmation = .error fault) :
      Faults m (.reply confirmation) .internalError

variable {m : Message} {a : Answer} {code : ErrorCode} {r : Registry} {h : Handler}
  {request : Value} {n : ℕ} {id action : String} {payload : Json}

/-- **A handler ends with a confirmation that is sent, or it faults with a code.** -/
theorem Answer.confirms_or_faults (m : Message) (a : Answer) :
    (∃ payload, Registry.conclude m a = .ok payload) ∨ ∃ code, a.Faults m code := by
  cases a with
  | panic => exact .inr ⟨_, .panic⟩
  | fail error =>
    cases error with
    | internal text => exact .inr ⟨_, .internal text⟩
    | notSupported => exact .inr ⟨_, .unsupported⟩
    | security text => exact .inr ⟨_, .security text⟩
  | reply confirmation =>
    cases keeps : m.confirmation.validate confirmation with
    | some fault => exact .inr ⟨_, .invalid keeps⟩
    | none =>
      cases encodes : m.confirmation.encode confirmation with
      | error fault => exact .inr ⟨_, .unencodable keeps encodes⟩
      | ok payload =>
        exact .inl ⟨payload, Registry.conclude_eq_ok_iff.2 ⟨confirmation, rfl, keeps, encodes⟩⟩

namespace Registry

/-- A handler that faults leaves a fault with that code and without details. -/
theorem conclude_of_faults (faults : a.Faults m code) :
    ∃ fault, conclude m a = .error fault ∧ fault.code = code ∧ fault.details = .empty := by
  cases faults with
  | internal | unsupported | security | panic => exact ⟨.failed _, rfl, rfl, rfl⟩
  | invalid breaks => exact ⟨.badConfirmation, by rw [conclude, breaks], rfl, rfl⟩
  | unencodable keeps fails =>
    exact ⟨.badConfirmation, by rw [conclude, keeps]; simp only [fails], rfl, rfl⟩

/-- So the code decides how the call is answered. -/
theorem reply_of_faults (faults : a.Faults m code) :
    r.reply id (conclude m a) = .refusal id code r.version .empty := by
  obtain ⟨fault, concludes, rfl, bare⟩ := conclude_of_faults faults
  rw [concludes, reply, bare]

/-- **The code of a handler's fault decides the frame** that answers the call. -/
theorem dispatch_of_faults (admits : r.Admits action payload h request)
    (faults : (h.react n request).answer.Faults h.message code) :
    r.dispatch n id action payload = .refusal id code r.version .empty := by
  rw [dispatch, accept_eq_ok_iff.2 admits]
  exact reply_of_faults faults

end Registry

/-! ## Refusals -/

/-- What a refusal may tell of the payloads that the peer has sent: the place of a fault, the rule
that is broken there, and the part of a request that breaks it. -/
inductive Registry.Discloses (r : Registry) (payloads : List Json) : String × Json → Prop
  | field {h : Handler} {place : String} (registered : h ∈ r.handlers)
      (known : Place h.message.request.shape.names place) :
      Discloses r payloads ("field", .str place)
  | constraint {rule : String} (known : rule ∈ ["required", "type", "length", "range"]) :
      Discloses r payloads ("constraint", .str rule)
  | value {h : Handler} {payload : Json} {request part : Value} (registered : h ∈ r.handlers)
      (sent : payload ∈ payloads) (decodes : h.message.request.decode payload = .ok request)
      (within : Value.Part part request) : Discloses r payloads ("value", part.encode)

/-- If the frame is a refusal, then it is told by its code, and its details hold nothing else than
they may. -/
def Frame.Discreet (r : Registry) (payloads : List Json) (f : Frame) : Prop :=
  ∀ id spelling description details, f = .error id spelling description details →
    ∃ (code : ErrorCode) (members : List (String × Json)),
      spelling = code.toWire r.version ∧ description = code.description ∧
        details = .obj members ∧ ∀ x ∈ members, r.Discloses payloads x

/-- The details of a payload fault are what is known of its field, its constraint and its value. -/
theorem PayloadFault.details_members (fault : PayloadFault) {tells : String × Json → Prop}
    (field : ∀ s, fault.field = some s → tells ("field", .str s))
    (constraint : ∀ s, fault.constraint = some s → tells ("constraint", .str s))
    (value : ∀ v, fault.value = some v → tells ("value", v)) :
    ∃ members, fault.details = .obj members ∧ ∀ x ∈ members, tells x := by
  refine ⟨_, rfl, Json.forall_mem_sorted fun x hx => ?_⟩
  simp only [List.mem_append, Option.mem_toList, Option.map_eq_some_iff] at hx
  rcases hx with (⟨s, known, rfl⟩ | ⟨s, known, rfl⟩) | ⟨v, known, rfl⟩
  · exact field s known
  · exact constraint s known
  · exact value v known

/-- **What is told of a call that is turned away** is where its payload is wrong, and in what. -/
theorem Registry.accept_discloses {payloads : List Json} {fault : DispatchFault}
    (away : r.accept action payload = .error fault) (sent : payload ∈ payloads) :
    ∃ members, fault.details = .obj members ∧ ∀ x ∈ members, r.Discloses payloads x := by
  rw [accept] at away
  split at away
  · cases away
    exact ⟨[], rfl, by simp⟩
  · rename_i h found
    have registered : h ∈ r.handlers := (lookup_eq_ok_iff.1 found).1
    split at away
    · rename_i fault fails
      cases away
      refine fault.report.details_members (fun place known => ?_) ?_ ?_
      · exact .field registered (PayloadType.report_place fails place known)
      · intro rule known
        refine .constraint ?_
        cases fault <;> cases known <;> simp
      · intro v known
        cases fault <;> cases known
    · rename_i request decodes
      split at away
      · rename_i fault breaks
        cases away
        obtain ⟨path, rule, part, within, -, same⟩ := PayloadType.validate_eq_some breaks
        refine fault.details_members (fun place known => ?_) ?_ ?_
        · exact .field registered (PayloadType.validate_place breaks place known)
        · rw [same]
          rintro _ ⟨⟩
          refine .constraint ?_
          cases rule <;> simp [Rule.name]
        · rw [same]
          rintro _ ⟨⟩
          exact .value registered sent decodes within
      · cases away

namespace Frame.Discreet

variable {payloads : List Json}

theorem refusal {details : Json}
    (tells : ∃ members, details = .obj members ∧ ∀ x ∈ members, r.Discloses payloads x) :
    (Frame.refusal id code r.version details).Discreet r payloads := by
  obtain ⟨members, same, allowed⟩ := tells
  intro id' spelling description details' refusal
  cases refusal
  exact ⟨code, members, rfl, rfl, same, allowed⟩

/-- A refusal without details. -/
theorem bare : (Frame.refusal id code r.version .empty).Discreet r payloads :=
  refusal ⟨[], rfl, by simp⟩

theorem result : (Frame.result id payload).Discreet r payloads := by
  intro _ _ _ _ other
  cases other

/-- **The answer to a call that is turned away is discreet.** -/
theorem away {fault : DispatchFault} (away : r.accept action payload = .error fault)
    (sent : payload ∈ payloads) : (r.reply id (.error fault)).Discreet r payloads :=
  refusal (Registry.accept_discloses away sent)

/-- **So is the answer to a call that a handler has ended.** -/
theorem concluded (m : Message) (a : Answer) :
    (r.reply id (Registry.conclude m a)).Discreet r payloads := by
  rcases a.confirms_or_faults m with ⟨payload, confirms⟩ | ⟨code, faults⟩
  · rw [confirms]
    exact result
  · rw [Registry.reply_of_faults faults]
    exact bare

end Frame.Discreet

end ChargeLink

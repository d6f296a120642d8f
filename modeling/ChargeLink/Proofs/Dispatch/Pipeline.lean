import ChargeLink.Dispatch.Reply
import ChargeLink.Proofs.Schema.Violations
import Mathlib.Data.List.Nodup

/-!
# The stages of a call

`Registry.Handles` says what becomes of a call, one rule for each way it may
end: the action is looked up, the payload decoded, the request checked, the
handler entered, its confirmation checked and encoded. It also says which
handlers were entered, and with which requests.

* `Registry.handles_iff`: a call is handled in exactly one way.
* `Registry.handles_dispatch_iff`: the frame is the one that `dispatch` gives.
-/

namespace ChargeLink

namespace Registry

/-- The handler is registered for the action, and the payload is a request that keeps its rules. -/
structure Admits (r : Registry) (action : String) (payload : Json) (h : Handler)
    (request : Value) : Prop where
  registered : h ∈ r.handlers
  serves : h.action = action
  decodes : h.message.request.decode payload = .ok request
  valid : h.message.request.validate request = none

/-- What becomes of a call, if handlers answer so: the handlers entered, with their requests, and
the frame that answers the call. -/
inductive Handles (r : Registry) (answer : Handler → Value → Answer) (id action : String)
    (payload : Json) : List (Handler × Value) → Frame → Prop
  /-- The version defines the action, but nobody serves it. -/
  | unsupported (unserved : ∀ h ∈ r.handlers, h.action ≠ action)
      (known : action ∈ r.version.actions) :
      Handles r answer id action payload [] (.refusal id .notSupported r.version .empty)
  /-- The version does not define the action. -/
  | unknown (unserved : ∀ h ∈ r.handlers, h.action ≠ action)
      (unknown : action ∉ r.version.actions) :
      Handles r answer id action payload [] (.refusal id .notImplemented r.version .empty)
  /-- The payload is no request of the registered type. -/
  | undecodable {h : Handler} {fault : DecodeFault} (registered : h ∈ r.handlers)
      (serves : h.action = action) (fails : h.message.request.decode payload = .error fault) :
      Handles r answer id action payload []
        (.refusal id fault.code r.version fault.report.details)
  /-- The request breaks a rule. -/
  | violating {h : Handler} {request : Value} {code : ErrorCode}
      {field constraint reason : String} {value : Json} (registered : h ∈ r.handlers)
      (serves : h.action = action) (decodes : h.message.request.decode payload = .ok request)
      (breaks : h.message.request.validate request =
        some ⟨code, some field, some constraint, some value, reason⟩) :
      Handles r answer id action payload [] (.refusal id code r.version
        (.obj [("constraint", .str constraint), ("field", .str field), ("value", value)]))
  /-- The handler fails. -/
  | failing {h : Handler} {request : Value} {message : String}
      (admits : r.Admits action payload h request)
      (fails : answer h request = .fail (.internal message)) :
      Handles r answer id action payload [(h, request)]
        (.refusal id .internalError r.version .empty)
  /-- The handler does not support the request. -/
  | unsupporting {h : Handler} {request : Value} (admits : r.Admits action payload h request)
      (fails : answer h request = .fail .notSupported) :
      Handles r answer id action payload [(h, request)]
        (.refusal id .notSupported r.version .empty)
  /-- The handler sees a security violation. -/
  | insecure {h : Handler} {request : Value} {message : String}
      (admits : r.Admits action payload h request)
      (fails : answer h request = .fail (.security message)) :
      Handles r answer id action payload [(h, request)]
        (.refusal id .securityError r.version .empty)
  /-- The handler panics. -/
  | panicking {h : Handler} {request : Value} (admits : r.Admits action payload h request)
      (panics : answer h request = .panic) :
      Handles r answer id action payload [(h, request)]
        (.refusal id .internalError r.version .empty)
  /-- The confirmation breaks a rule. -/
  | unfit {h : Handler} {request confirmation : Value} {fault : PayloadFault}
      (admits : r.Admits action payload h request)
      (replies : answer h request = .reply confirmation)
      (breaks : h.message.confirmation.validate confirmation = some fault) :
      Handles r answer id action payload [(h, request)]
        (.refusal id .internalError r.version .empty)
  /-- The confirmation cannot be encoded. -/
  | unencodable {h : Handler} {request confirmation : Value} {fault : PayloadFault}
      (admits : r.Admits action payload h request)
      (replies : answer h request = .reply confirmation)
      (keeps : h.message.confirmation.validate confirmation = none)
      (fails : h.message.confirmation.encode confirmation = .error fault) :
      Handles r answer id action payload [(h, request)]
        (.refusal id .internalError r.version .empty)
  /-- The confirmation is sent. -/
  | confirming {h : Handler} {request confirmation : Value} {result : Json}
      (admits : r.Admits action payload h request)
      (replies : answer h request = .reply confirmation)
      (keeps : h.message.confirmation.validate confirmation = none)
      (encodes : h.message.confirmation.encode confirmation = .ok result) :
      Handles r answer id action payload [(h, request)] (.result id result)

variable {r : Registry} {answer : Handler → Value → Answer} {id action : String} {payload : Json}
  {h : Handler} {request : Value} {fault : DispatchFault} {entered : List (Handler × Value)}
  {f : Frame}

/-! ## Each stage -/

/-- A handler is found if it is registered for the action. -/
theorem lookup_eq_ok_iff : r.lookup action = .ok h ↔ h ∈ r.handlers ∧ h.action = action := by
  have distinct : (r.handlers.map Handler.action).Nodup :=
    r.ascending.imp fun less => String.ne_of_lt less
  unfold lookup find?
  constructor
  · intro found
    split at found
    · rename_i g hg
      cases found
      exact ⟨List.mem_of_find?_eq_some hg, by simpa using List.find?_some hg⟩
    · cases found
  · rintro ⟨registered, serves⟩
    split
    · rename_i g hg
      -- no other handler serves the action
      have same : g.action = h.action := by
        have := List.find?_some hg
        rw [serves]
        simpa using this
      rw [List.inj_on_of_nodup_map distinct (List.mem_of_find?_eq_some hg) registered same]
    · rename_i none
      exact absurd serves (by simpa using List.find?_eq_none.1 none h registered)

/-- The code of an action that nobody serves. -/
theorem lookup_eq_error_iff {code : ErrorCode} : r.lookup action = .error code ↔
    (∀ h ∈ r.handlers, h.action ≠ action) ∧
      code = if action ∈ r.version.actions then .notSupported else .notImplemented := by
  unfold lookup find?
  constructor
  · intro missing
    split at missing
    · cases missing
    · rename_i none
      cases missing
      exact ⟨by simpa using none, by simp [Version.knows]⟩
  · rintro ⟨unserved, rfl⟩
    have none : r.handlers.find? (fun h => h.action == action) = none := by simpa using unserved
    rw [none]
    simp [Version.knows]

/-- A request is accepted if it is admitted. -/
theorem accept_eq_ok_iff :
    r.accept action payload = .ok (h, request) ↔ r.Admits action payload h request := by
  unfold accept
  constructor
  · intro accepted
    split at accepted
    · cases accepted
    · rename_i g found
      obtain ⟨registered, serves⟩ := lookup_eq_ok_iff.1 found
      split at accepted
      · cases accepted
      · rename_i v decodes
        split at accepted
        · cases accepted
        · rename_i valid
          cases accepted
          exact ⟨registered, serves, decodes, valid⟩
  · rintro ⟨registered, serves, decodes, valid⟩
    simp only [lookup_eq_ok_iff.2 ⟨registered, serves⟩, decodes, valid]

/-- The details of a violation: its rule, its place and its value. -/
theorem details_violation (code : ErrorCode) (field constraint reason : String) (value : Json) :
    (PayloadFault.mk code (some field) (some constraint) (some value) reason).details =
      .obj [("constraint", .str constraint), ("field", .str field), ("value", value)] := by
  have first : "constraint" < "field" := by decide
  have second : ¬"value" < "constraint" ∧ "constraint" < "value" := by decide
  have third : ¬"value" < "field" ∧ "field" < "value" := by decide
  simp [PayloadFault.details, Json.object, Json.sorted, Json.insert, first, second, third]

/-- A call may be refused before any handler is entered. -/
theorem handles_of_accept (refused : r.accept action payload = .error fault) :
    r.Handles answer id action payload [] (r.reply id (.error fault)) := by
  unfold accept at refused
  split at refused
  · rename_i code missing
    cases refused
    obtain ⟨unserved, rfl⟩ := lookup_eq_error_iff.1 missing
    by_cases known : action ∈ r.version.actions
    · rw [if_pos known]
      exact .unsupported unserved known
    · rw [if_neg known]
      exact .unknown unserved known
  · rename_i g found
    obtain ⟨registered, serves⟩ := lookup_eq_ok_iff.1 found
    split at refused
    · rename_i fails
      cases refused
      have same : ∀ fault : DecodeFault, fault.report.code = fault.code := by
        intro fault
        cases fault <;> rfl
      rw [reply, DispatchFault.code, same]
      exact .undecodable registered serves fails
    · rename_i v decodes
      split at refused
      · rename_i broken breaks
        cases refused
        obtain ⟨field, rule, w, -, -, rfl⟩ := PayloadType.validate_eq_some breaks
        rw [reply, DispatchFault.details, details_violation]
        exact .violating registered serves decodes breaks
      · cases refused

/-- What becomes of a request that is admitted. -/
theorem Admits.handles (admits : r.Admits action payload h request) :
    r.Handles answer id action payload [(h, request)]
      (r.reply id (conclude h.message (answer h request))) := by
  cases answered : answer h request with
  | panic => exact .panicking admits answered
  | fail error =>
    cases error with
    | internal message => exact .failing admits answered
    | notSupported => exact .unsupporting admits answered
    | security message => exact .insecure admits answered
  | reply confirmation =>
    simp only [conclude]
    split
    · rename_i breaks
      exact .unfit admits answered breaks
    · rename_i keeps
      split
      · rename_i fails
        exact .unencodable admits answered keeps fails
      · rename_i encodes
        exact .confirming admits answered keeps encodes

/-- A call is refused before any handler is entered, or it is admitted. -/
theorem Handles.cases (handles : r.Handles answer id action payload entered f) :
    (∃ fault, r.accept action payload = .error fault ∧ entered = [] ∧
      f = r.reply id (.error fault)) ∨
    ∃ h request, r.Admits action payload h request ∧ entered = [(h, request)] ∧
      f = r.reply id (conclude h.message (answer h request)) := by
  cases handles with
  | unsupported unserved known =>
    have missing := lookup_eq_error_iff.2 ⟨unserved, (if_pos known).symm⟩
    exact .inl ⟨.unserved .notSupported, by rw [accept, missing], rfl, rfl⟩
  | unknown unserved unknown =>
    have missing := lookup_eq_error_iff.2 ⟨unserved, (if_neg unknown).symm⟩
    exact .inl ⟨.unserved .notImplemented, by rw [accept, missing], rfl, rfl⟩
  | @undecodable g fault registered serves fails =>
    have found := lookup_eq_ok_iff.2 ⟨registered, serves⟩
    refine .inl ⟨.badRequest fault.report, by simp only [accept, found, fails], rfl, ?_⟩
    cases fault <;> rfl
  | @violating g v code field constraint reason value registered serves decodes breaks =>
    have found := lookup_eq_ok_iff.2 ⟨registered, serves⟩
    refine .inl ⟨.badRequest ⟨code, some field, some constraint, some value, reason⟩,
      by simp only [accept, found, decodes, breaks], rfl, ?_⟩
    rw [reply, DispatchFault.details, details_violation]
    rfl
  | failing admits fails => exact .inr ⟨_, _, admits, rfl, by rw [fails]; rfl⟩
  | unsupporting admits fails => exact .inr ⟨_, _, admits, rfl, by rw [fails]; rfl⟩
  | insecure admits fails => exact .inr ⟨_, _, admits, rfl, by rw [fails]; rfl⟩
  | panicking admits panics => exact .inr ⟨_, _, admits, rfl, by rw [panics]; rfl⟩
  | unfit admits replies breaks =>
    exact .inr ⟨_, _, admits, rfl, by rw [replies, conclude, breaks]; rfl⟩
  | unencodable admits replies keeps fails =>
    exact .inr ⟨_, _, admits, rfl, by rw [replies, conclude, keeps]; simp only [fails]; rfl⟩
  | confirming admits replies keeps encodes =>
    exact .inr ⟨_, _, admits, rfl, by rw [replies, conclude, keeps]; simp only [encodes]; rfl⟩

/-- Only a confirmation that keeps its rules and can be encoded becomes a result. -/
theorem conclude_eq_ok_iff {m : Message} {a : Answer} {result : Json} :
    conclude m a = .ok result ↔ ∃ confirmation, a = .reply confirmation ∧
      m.confirmation.validate confirmation = none ∧
      m.confirmation.encode confirmation = .ok result := by
  constructor
  · intro concludes
    cases a with
    | fail | panic => cases concludes
    | reply confirmation =>
      simp only [conclude] at concludes
      split at concludes
      · cases concludes
      · rename_i keeps
        split at concludes
        · cases concludes
        · rename_i encodes
          cases concludes
          exact ⟨confirmation, rfl, keeps, encodes⟩
  · rintro ⟨confirmation, rfl, keeps, encodes⟩
    simp only [conclude, keeps, encodes]

/-! ## A whole call -/

/-- **A call is handled in exactly one way**, which begins with whether it is accepted. -/
theorem handles_iff : r.Handles answer id action payload entered f ↔
    match r.accept action payload with
    | .error fault => entered = [] ∧ f = r.reply id (.error fault)
    | .ok (h, request) =>
      entered = [(h, request)] ∧ f = r.reply id (conclude h.message (answer h request)) := by
  constructor
  · intro handles
    rcases handles.cases with ⟨fault, refused, none, frame⟩ | ⟨h, request, admits, one, frame⟩
    · rw [refused]
      exact ⟨none, frame⟩
    · rw [accept_eq_ok_iff.2 admits]
      exact ⟨one, frame⟩
  · intro same
    split at same
    · rename_i refused
      rw [same.1, same.2]
      exact handles_of_accept refused
    · rename_i accepted
      rw [same.1, same.2]
      exact (accept_eq_ok_iff.1 accepted).handles

/-- The handlers that a call enters, with their requests: one at most. -/
def entrants (r : Registry) (action : String) (payload : Json) : List (Handler × Value) :=
  match r.accept action payload with
  | .error _ => []
  | .ok entrant => [entrant]

/-- **`dispatch` gives the frame that answers the call**, and enters no other handler. -/
theorem handles_dispatch_iff {n : ℕ} :
    r.Handles (fun h request => (h.react n request).answer) id action payload entered f ↔
      entered = r.entrants action payload ∧ f = r.dispatch n id action payload := by
  rw [handles_iff, entrants, dispatch]
  cases r.accept action payload <;> rfl

/-- A call is answered under its own id, and by no call. -/
theorem reply_answers (r : Registry) (id : String) (result : Except DispatchFault Json) :
    (r.reply id result).id = id ∧ (r.reply id result).kind ≠ .call := by
  cases result with
  | ok payload => exact ⟨rfl, by simp [reply, Frame.kind]⟩
  | error fault => exact ⟨rfl, by simp [reply, Frame.refusal, Frame.kind]⟩

end Registry

end ChargeLink

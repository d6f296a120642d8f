import ChargeLink.Proofs.Catalog.Vocabulary
import ChargeLink.Proofs.Session.Service
import ChargeLink.Proofs.Session.Wire

/-!
# What a session hears of its peer

A session hears what its peer transmits, in order and as late as may be: what
it has heard is a prefix of what the peer has transmitted. If that can be read
back, then every text is a frame that the peer had a reason to transmit.

* `Hears.dispatched`: a call that is heard is dispatched as the peer sent it.
* `Hears.clear_of`: so all that the session transmits can be read back, too.
* `Hears.calls_faithful`: calls end with what the peer's handler returned or with
  the fault that the peer found, and no call enters a handler twice.
-/

namespace ChargeLink

variable {D : Binary64 → Prop} {w : Vocabulary} {c d : Chronicle}

namespace Chronicle

/-- What the session was asked to send is of the vocabulary, and what its handlers reply is of the
type of their message. -/
structure Apt (D : Binary64 → Prop) (w : Vocabulary) (c : Chronicle) : Prop where
  asked : ∀ m v, (m, v) ∈ c.asked → m ∈ w.messages ∧ m.request.Typed D v
  replied : ∀ call v, (call, .reply v) ∈ c.log.returns →
    ∀ m ∈ w.messages, m.action = call.action → m.confirmation.Typed D v

theorem Apt.mono (h : d.Apt D w) (grows : Grows c d) : c.Apt D w :=
  ⟨fun m v mem => h.asked m v (grows.asked.subset mem),
    fun call v mem => h.replied call v (grows.returns.subset mem)⟩

/-- Whatever the session has a reason to transmit can be read back. -/
def Clear (D : Binary64 → Prop) (c : Chronicle) : Prop :=
  ∀ f, c.Justified f → f.Plain D

end Chronicle

/-- If calls are read as the calls that they are, then the ids of those that are heard are those
under which the peer transmitted its first calls. -/
theorem Wired.arrivals_of_heard (h : Wired ⟨d, none⟩) (heard : c.heard <+: d.log.texts)
    (read : ∀ f, d.Justified f → (c.session.codec.call? (d.session.codec.encode f)).map
      InboundCall.id = f.callId?) :
    c.arrivals.map InboundCall.id <+: d.log.calls.map Prod.snd := by
  obtain ⟨fs, texts, ids, justified⟩ := h.frames
  rw [texts] at heard
  obtain ⟨gs, first, heard⟩ := List.prefix_map_iff.1 heard
  have same : c.arrivals.map InboundCall.id = gs.filterMap Frame.callId? := by
    rw [Chronicle.arrivals, heard, List.map_filterMap, List.filterMap_map]
    exact List.filterMap_congr fun f hf => read f (justified f (first.subset hf))
  rw [← ids, same]
  exact first.filterMap _

/-- What `c` hears is what `d` transmits, and `d` transmits nothing but frames of the vocabulary. -/
structure Hears (D : Binary64 → Prop) (w : Vocabulary) (c d : Chronicle) : Prop where
  reachable : d.Reachable
  apt : d.Apt D w
  clear : d.Clear D
  readBy : d.session.codec.ReadBy D c.session.codec
  heard : c.heard <+: d.log.texts

namespace Hears

/-- **What is heard is a frame that the peer had a reason to transmit.** -/
theorem frame (h : Hears D w c d) {text : String} (heard : text ∈ c.heard) :
    ∃ f, d.Justified f ∧ f.Plain D ∧ c.session.codec.decode text = .ok f := by
  obtain ⟨fs, texts, -, justified⟩ := (Wired.of_reachable h.reachable.desk).frames
  have sent := h.heard.subset heard
  rw [texts] at sent
  obtain ⟨f, hf, rfl⟩ := List.mem_map.1 sent
  have plain := h.clear f (justified f hf)
  exact ⟨f, justified f hf, plain, h.readBy f plain⟩

/-- A call that is heard is one of the peer's own. -/
theorem arrival (h : Hears D w c d) {call : InboundCall} (arrived : call ∈ c.arrivals) :
    ∃ k m v, (k, call.id) ∈ d.log.calls ∧ d.asked[k]? = some (m, v) ∧ call.action = m.action ∧
      call.payload = v.encode ∧ m.request.validate v = none ∧ m ∈ w.messages ∧
      m.request.Typed D v := by
  obtain ⟨text, heard, called⟩ := List.mem_filterMap.1 arrived
  obtain ⟨f, justified, -, decodes⟩ := h.frame heard
  -- of the frames that the peer transmits, only its own calls are calls
  unfold Codec.call? at called
  rw [decodes] at called
  cases justified with
  | @call k id m v p mine asked fit =>
    cases called
    obtain ⟨known, typed⟩ := h.apt.asked m v (List.mem_of_getElem? asked)
    exact ⟨k, m, v, mine, asked, rfl, PayloadType.encode_eq fit.2, fit.1, known, typed⟩
  | @reply other result => cases result <;> cases called
  | refusal => cases called

/-- The ids of the calls that are heard are those under which the peer transmitted its first
calls. -/
theorem arrivals_prefix (h : Hears D w c d) :
    c.arrivals.map InboundCall.id <+: d.log.calls.map Prod.snd := by
  refine (Wired.of_reachable h.reachable.desk).arrivals_of_heard h.heard fun f justified => ?_
  rw [Codec.call?, h.readBy f (h.clear f justified)]
  cases f <;> rfl

/-- **A dispatched call has the confirmation that its handler returned, or a bare fault.** -/
theorem dispatched (h : Hears D w c d) (reachable : c.Reachable) (apt : c.Apt D w)
    (speaks : c.session.registry.Speaks w) {call : InboundCall}
    {result : Except DispatchFault Json} (mem : (call, result) ∈ c.log.dispatches) :
    ∃ k m v, (k, call.id) ∈ d.log.calls ∧ d.asked[k]? = some (m, v) ∧ m ∈ w.messages ∧
      call.action = m.action ∧
      ((∃ fault, result = .error fault ∧ fault.Bare) ∨
        ∃ handler reply, handler.message = m ∧ (call, handler, v) ∈ c.log.entries ∧
          (call, .reply reply) ∈ c.log.returns ∧ m.confirmation.Typed D reply ∧
          m.confirmation.validate reply = none ∧ result = .ok reply.encode) := by
  have served := Served.of_reachable reachable.desk
  have arrived : call ∈ c.arrivals := by
    refine served.arrivals.subset (List.mem_append_left _ ?_)
    exact List.mem_map.2 ⟨(call, result), mem, rfl⟩
  obtain ⟨k, m, v, called, asked, action, payload, valid, known, typed⟩ := h.arrival arrived
  refine ⟨k, m, v, called, asked, known, action, ?_⟩
  -- the registry sees the request as the peer encoded it
  have accept := Vocabulary.accept_encoded speaks known typed valid
  rw [← action, ← payload] at accept
  rcases served.outcome call result mem with ⟨fault, refused, rfl⟩ |
    ⟨handler, request, answer, entry, returned, rfl⟩
  · rw [refused] at accept
    rcases accept with ⟨fault', bare, same⟩ | ⟨_, _, same⟩
    · cases same
      exact .inl ⟨fault, rfl, bare⟩
    · cases same
  · have accepted := served.accepted call handler request entry
    rw [accepted] at accept
    rcases accept with ⟨_, _, same⟩ | ⟨handler', message, same⟩
    · cases same
    · cases same
      cases concluded : Registry.conclude handler.message answer with
      | error fault => exact .inl ⟨fault, rfl, Registry.conclude_error concluded⟩
      | ok p =>
        obtain ⟨reply, rfl, rfl, fits⟩ := Registry.conclude_ok concluded
        rw [message] at fits
        exact .inr ⟨handler, reply, message, entry, returned,
          apt.replied call reply returned m known action.symm, fits, rfl⟩

/-- **Who hears only frames of the vocabulary transmits only such frames.** -/
theorem clear_of (h : Hears D w c d) (reachable : c.Reachable) (apt : c.Apt D w)
    (speaks : c.session.registry.Speaks w) : c.Clear D := by
  have bare : Json.empty.Plain D Frame.payloadDepth := Json.Plain.empty
  intro f justified
  cases justified with
  | call called asked fit =>
    obtain ⟨known, typed⟩ := apt.asked _ _ (List.mem_of_getElem? asked)
    rw [PayloadType.encode_eq fit.2]
    exact ⟨PayloadType.plain (w.readable _ known).1 typed, Shape.Typed.isNull_encode typed⟩
  | @reply call result mem =>
    obtain ⟨k, m, v, -, -, known, -, result⟩ := h.dispatched reachable apt speaks mem
    rcases result with ⟨fault, rfl, empty⟩ | ⟨handler, reply, -, -, -, typed, -, rfl⟩
    · refine ⟨?_, ?_⟩
      · show fault.details.Plain D Frame.payloadDepth
        rw [empty.details]
        exact bare
      · show fault.details.isNull = false
        rw [empty.details]
        rfl
    · exact ⟨PayloadType.plain (w.readable _ known).2 typed, Shape.Typed.isNull_encode typed⟩
  | refusal => exact ⟨bare, rfl⟩

/-- **A call ends with what the peer's handler returned, or with the fault that the peer found.** -/
theorem answered (h : Hears D w c d) (h' : Hears D w d c) (speaks : d.session.registry.Speaks w)
    {k : ℕ} {o : Except CallFailure Value} (answered : c.Answered k o) :
    ∃ m v call, c.asked[k]? = some (m, v) ∧ (k, call.id) ∈ c.log.calls ∧ call.action = m.action ∧
      ((∃ fault, (call, .error fault) ∈ d.log.dispatches ∧
          o = .error (.refused fault.code fault.code.description fault.details)) ∨
        ∃ handler reply, handler.message = m ∧ (call, handler, v) ∈ d.log.entries ∧
          (call, .reply reply) ∈ d.log.returns ∧ o = .ok reply) := by
  have ids := (Wired.of_reachable h'.reachable.desk).ids_nodup
  obtain ⟨m, v, id, text, f, raw, asked, called, heard, decodes, answers, rfl⟩ := answered
  obtain ⟨g, justified, -, read⟩ := h.frame heard
  rw [read] at decodes
  cases decodes
  cases justified with
  | call => cases answers
  | @refusal text' fault id' heard' fails =>
    -- the peer refuses no text, since it can read all it hears
    obtain ⟨g, -, -, read⟩ := h'.frame heard'
    rw [fails] at read
    cases read
  | @reply call result mem =>
    obtain ⟨k', m', v', called', asked', known, action, result⟩ :=
      h'.dispatched h.reachable h.apt speaks mem
    -- the id tells which call it is
    have mine : id = call.id → k' = k ∧ m' = m ∧ v' = v := by
      intro same
      subst same
      cases List.inj_on_of_nodup_map ids called' called rfl
      rw [asked] at asked'
      cases asked'
      exact ⟨rfl, rfl, rfl⟩
    rcases result with ⟨fault, rfl, bare⟩ |
      ⟨handler, reply, message, entry, returned, typed, valid, rfl⟩
    · cases answers
      obtain ⟨rfl, rfl, rfl⟩ := mine rfl
      refine ⟨m', v', call, asked, called, action, .inl ⟨fault, mem, ?_⟩⟩
      simp only [Owner.outcome]
      -- the code survives the spelling of the version
      rw [ErrorCode.ofWire_toWire, bare.code]
    · cases answers
      obtain ⟨rfl, rfl, rfl⟩ := mine rfl
      refine ⟨m', v', call, asked, called, action,
        .inr ⟨handler, reply, message, entry, returned, ?_⟩⟩
      -- the confirmation is read back as the reply
      have back := PayloadType.decode_encode (w.readable m' known).2 typed
      simp [Owner.outcome, back, valid]

end Hears

/-! ## What a caller learns -/

/-- What a list says of the inbound calls of an id. -/
def Log.about {α : Type} (id : String) (l : List (InboundCall × α)) : List (InboundCall × α) :=
  l.filter fun x => x.1.id = id

/-- A session's calls end with what its peer did for them, and the peer does it once. -/
structure Faithful (caller peer : Chronicle) : Prop where
  tickets : (caller.log.calls.map Prod.fst).Nodup
  ids : (caller.log.calls.map Prod.snd).Nodup
  /-- A call that ends well entered one handler, with the request as it was sent, and ends with
  what the handler returned. -/
  confirmed : ∀ k u reply, (k, u, .ok reply) ∈ caller.log.settlements → ∃ m v id call handler,
    caller.asked[k]? = some (m, v) ∧ (k, id) ∈ caller.log.calls ∧ call.action = m.action ∧
      handler.message = m ∧ Log.about id peer.log.entries = [(call, handler, v)] ∧
      Log.about id peer.log.returns = [(call, .reply reply)]
  /-- A call that is refused is refused with the fault that the peer found. -/
  refused : ∀ k u code description details,
    (k, u, .error (.refused code description details)) ∈ caller.log.settlements →
    ∃ m v id call fault, caller.asked[k]? = some (m, v) ∧ (k, id) ∈ caller.log.calls ∧
      call.action = m.action ∧ Log.about id peer.log.dispatches = [(call, .error fault)] ∧
      code = fault.code ∧ description = fault.code.description ∧ details = fault.details
  /-- No call enters more than one handler. -/
  once : ∀ k id, (k, id) ∈ caller.log.calls → (Log.about id peer.log.entries).length ≤ 1
  /-- What was replied to one call, however late, is never taken for the reply to another. -/
  apart : ∀ k id k' u reply, (k, id) ∈ caller.log.calls → k' ≠ k →
    (k', u, .ok reply) ∈ caller.log.settlements → ∃ id' call, id' ≠ id ∧
      (k', id') ∈ caller.log.calls ∧ Log.about id' peer.log.returns = [(call, .reply reply)]

namespace Log

variable {α : Type} {l : List (InboundCall × α)}

/-- Of calls with distinct ids, one has the id of a call. -/
theorem about_eq (nodup : (l.map (·.1.id)).Nodup) {x : InboundCall × α} (hx : x ∈ l) :
    about x.1.id l = [x] := by
  unfold about
  induction l with
  | nil => cases hx
  | cons y r ih =>
    obtain ⟨fresh, nodup⟩ := List.nodup_cons.1 nodup
    rcases List.mem_cons.1 hx with rfl | hx
    · have none : r.filter (fun z => z.1.id = x.1.id) = [] := by
        rw [List.filter_eq_nil_iff]
        intro z hz
        have other : z.1.id ≠ x.1.id := fun same => fresh (List.mem_map.2 ⟨z, hz, same⟩)
        simpa using other
      simp [none]
    · have other : y.1.id ≠ x.1.id := fun same => fresh (List.mem_map.2 ⟨x, hx, same.symm⟩)
      simp [other, ih nodup hx]

theorem length_about_le (nodup : (l.map (·.1.id)).Nodup) (id : String) :
    (about id l).length ≤ 1 := by
  by_cases some : ∃ x ∈ l, x.1.id = id
  · obtain ⟨x, hx, rfl⟩ := some
    rw [about_eq nodup hx]
    exact Nat.le_refl 1
  · have none : about id l = [] := by
      refine List.filter_eq_nil_iff.2 fun x hx => ?_
      simpa using fun same => some ⟨x, hx, same⟩
    simp [none]

end Log

namespace Hears

/-- Whatever was dispatched, entered or returned, was it once for each id. -/
theorem dispatches_nodup (h : Hears D w c d) (reachable : c.Reachable) :
    (c.log.dispatches.map (·.1.id)).Nodup ∧ (c.log.entries.map (·.1.id)).Nodup ∧
      (c.log.returns.map (·.1.id)).Nodup := by
  have served := Served.of_reachable reachable.desk
  have ids := (Wired.of_reachable h.reachable.desk).ids_nodup
  -- the peer uses no id twice, and what is dispatched has arrived
  have arrivals : (c.arrivals.map InboundCall.id).Nodup := ids.sublist h.arrivals_prefix.sublist
  have all := arrivals.sublist (served.arrivals.map InboundCall.id)
  have entered : ((c.log.entries.map Prod.fst).map InboundCall.id).Nodup := by
    refine arrivals.sublist (.trans (served.entries.map _) (.trans ?_ (served.arrivals.map _)))
    exact .map _ (.append_left (List.sublist_append_left ..) _)
  refine ⟨?_, ?_, ?_⟩
  · rw [List.map_append] at all
    simpa [Function.comp_def] using (List.nodup_append.1 all).1
  · simpa [Function.comp_def] using entered
  · rw [served.returns, List.map_append] at entered
    simpa [Function.comp_def] using (List.nodup_append.1 entered).1

/-- **The calls of a session end with what its peer did for them.** -/
theorem calls_faithful (h : Hears D w c d) (h' : Hears D w d c)
    (speaks : d.session.registry.Speaks w) : Faithful c d := by
  have wired := Wired.of_reachable h'.reachable.desk
  obtain ⟨dispatches, entries, returns⟩ := h'.dispatches_nodup h.reachable
  have confirmed : ∀ k u reply, (k, u, .ok reply) ∈ c.log.settlements → ∃ m v id call handler,
      c.asked[k]? = some (m, v) ∧ (k, id) ∈ c.log.calls ∧ call.action = m.action ∧
        handler.message = m ∧ Log.about id d.log.entries = [(call, handler, v)] ∧
        Log.about id d.log.returns = [(call, .reply reply)] := by
    intro k u reply settled
    rcases wired.outcomes k u _ settled with ⟨f, failed, -⟩ | answer
    · cases failed
    obtain ⟨m, v, call, asked, called, action, fault | good⟩ := h.answered h' speaks answer
    · obtain ⟨fault, -, other⟩ := fault
      cases other
    · obtain ⟨handler, reply, message, entry, returned, same⟩ := good
      cases same
      exact ⟨m, v, call.id, call, handler, asked, called, action, message,
        Log.about_eq entries entry, Log.about_eq returns returned⟩
  refine ⟨Accounts.calls_nodup h'.reachable.desk, wired.ids_nodup, confirmed, ?_, ?_, ?_⟩
  · intro k u code description details settled
    rcases wired.outcomes k u _ settled with ⟨f, failed, own⟩ | answer
    · cases failed
      cases own
    obtain ⟨m, v, call, asked, called, action, fault | good⟩ := h.answered h' speaks answer
    · obtain ⟨fault, found, same⟩ := fault
      cases same
      exact ⟨m, v, call.id, call, fault, asked, called, action,
        Log.about_eq dispatches found, rfl, rfl, rfl⟩
    · obtain ⟨_, _, -, -, -, same⟩ := good
      cases same
  · exact fun _ id _ => Log.length_about_le entries id
  -- the reply bears the id of the call that it ends, and no other call has it
  · intro k id k' u reply called other settled
    obtain ⟨m, v, id', call, handler, -, called', -, -, -, returned⟩ := confirmed k' u reply settled
    refine ⟨id', call, fun same => other ?_, called', returned⟩
    subst same
    exact congrArg Prod.fst (List.inj_on_of_nodup_map wired.ids_nodup called' called rfl)

end Hears

end ChargeLink

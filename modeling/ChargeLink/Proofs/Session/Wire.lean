import ChargeLink.Proofs.Session.Accounts
import ChargeLink.Proofs.Session.Growth

/-!
# What a session transmits and how its calls end

Every text a session transmits is one of its own calls, the reply to a call it
dispatched, or the refusal of a text that is no frame. Own calls bear ids that
are used once. A call ends with what the peer answered only if a text with its
id was heard.

* `Wired.of_reachable`: so it is for every desk.
-/

namespace ChargeLink

variable {c d : Chronicle}

/-- The id that the own call of a number is transmitted under. -/
def Session.idOf (s : Session) (i : ℕ) : String :=
  s.label ++ "#" ++ toString (i + 1)

theorem Session.idOf_injective (s : Session) : Function.Injective s.idOf := by
  intro i j h
  have digits : Nat.toDigits 10 (i + 1) = Nat.toDigits 10 (j + 1) := by
    have := (String.append_right_inj (s.label ++ "#")).1 h
    rw [← Nat.toList_repr, ← Nat.toList_repr]
    exact congrArg String.toList this
  have same : i + 1 = j + 1 := by
    rw [← Nat.ofDigitChars_ten_toDigits (n := i + 1), digits, Nat.ofDigitChars_ten_toDigits]
  omega

/-- The failures that an answer of the peer may bring. -/
def CallFailure.fromPeer : CallFailure → Bool
  | .refused .. | .badConfirmation _ => true
  | _ => false

/-- The id of a call. -/
def Frame.callId? : Frame → Option String
  | .call id _ _ => some id
  | _ => none

/-- A queued call is that of the request that was asked for under its ticket. -/
def QueuedCall.Asked (q : QueuedCall) (asked : List (Message × Value)) : Prop :=
  ∃ m v, asked[q.owner.ticket]? = some (m, v) ∧ m.Encodes v q.payload ∧
    q.owner.confirmation = m.confirmation ∧ q.action = m.action

namespace Chronicle

/-- Why a frame is transmitted. -/
inductive Justified (c : Chronicle) : Frame → Prop
  | call {k id m v p} (called : (k, id) ∈ c.log.calls) (asked : c.asked[k]? = some (m, v))
      (fit : m.Encodes v p) : Justified c (.call id m.action p)
  | reply {call result} (dispatched : (call, result) ∈ c.log.dispatches) :
      Justified c (c.session.registry.reply call.id result)
  | refusal {text fault} (id : String) (heard : text ∈ c.heard)
      (fails : c.session.codec.decode text = .error fault) :
      Justified c (.refusal id fault.code c.session.version Json.empty)

/-- An outcome is what the peer answered to the call. -/
def Answered (c : Chronicle) (k : ℕ) (o : Except CallFailure Value) : Prop :=
  ∃ m v id text f raw, c.asked[k]? = some (m, v) ∧ (k, id) ∈ c.log.calls ∧ text ∈ c.heard ∧
    c.session.codec.decode text = .ok f ∧ f.answer? = some (id, raw) ∧
    o = Owner.outcome ⟨k, m.confirmation⟩ raw

theorem Justified.mono {f : Frame} (h : c.Justified f) (grows : Grows c d) : d.Justified f := by
  cases h with
  | call called asked fit =>
    exact .call (grows.calls.subset called) (grows.asked_getElem? asked) fit
  | reply dispatched =>
    rw [← grows.registry]
    exact .reply (grows.dispatches.subset dispatched)
  | refusal id heard fails =>
    have version : d.session.version = c.session.version := by
      rw [Session.version, grows.registry, Session.version]
    rw [← version]
    exact .refusal id (grows.heard.subset heard) (by rwa [grows.codec])

theorem Answered.mono {k : ℕ} {o : Except CallFailure Value} (h : c.Answered k o)
    (grows : Grows c d) : d.Answered k o := by
  obtain ⟨m, v, id, text, f, raw, asked, called, heard, decodes, rest⟩ := h
  exact ⟨m, v, id, text, f, raw, grows.asked_getElem? asked, grows.calls.subset called,
    grows.heard.subset heard, by rwa [grows.codec], rest⟩

end Chronicle

theorem QueuedCall.Asked.mono {q : QueuedCall} (h : q.Asked c.asked) (grows : Grows c d) :
    q.Asked d.asked := by
  obtain ⟨m, v, asked, rest⟩ := h
  exact ⟨m, v, grows.asked_getElem? asked, rest⟩

/-- The call of the next ticket is that of the request that is asked for. -/
theorem Session.nextCall_asked {m : Message} {v : Value} {p : Json}
    (issued : c.asked.length = c.session.issued) (fit : m.Encodes v p) :
    (c.session.nextCall m p).Asked (c.ask m v).asked := by
  refine ⟨m, v, ?_, fit, rfl, rfl⟩
  show (c.asked ++ [(m, v)])[c.session.issued]? = _
  rw [← issued, List.getElem?_concat_length]

theorem Session.TurnsAway.fromPeer {s : Session} {m : Message} {v : Value} {f : CallFailure}
    (h : s.TurnsAway m v f) : f.fromPeer = false := by
  cases h <;> rfl

/-- Whether an effect transmits something. -/
def Effect.transmits : Effect → Bool
  | .sent _ | .called .. => true
  | _ => false

/-- What a session transmits, and how its calls end. -/
structure Wired (d : Desk) : Prop where
  ids : d.chronicle.log.calls.map Prod.snd =
    (List.range d.chronicle.session.transmitted).map d.chronicle.session.idOf
  frames : ∃ fs : List Frame, d.chronicle.log.texts = fs.map d.chronicle.session.codec.encode ∧
    fs.filterMap Frame.callId? = d.chronicle.log.calls.map Prod.snd ∧
    ∀ f ∈ fs, d.chronicle.Justified f
  waiting : ∀ q, q ∈ d.chronicle.session.queue ∨ d.hand = some q → q.Asked d.chronicle.asked
  held : ∀ call, d.chronicle.session.slot = ⟨some call⟩ →
    (call.owner.ticket, call.id) ∈ d.chronicle.log.calls ∧
    ∃ m v, d.chronicle.asked[call.owner.ticket]? = some (m, v) ∧
      call.owner.confirmation = m.confirmation
  outcomes : ∀ k u o, (k, u, o) ∈ d.chronicle.log.settlements →
    (∃ f, o = .error f ∧ f.fromPeer = false) ∨ d.chronicle.Answered k o

namespace Wired

variable {d e : Desk}

/-- The invariant stays if what is transmitted is justified, and no call ends but with a failure of
the session's own or with the peer's answer. -/
theorem keep (h : Wired d) (grows : Grows d.chronicle e.chronicle)
    (calls : e.chronicle.log.calls = d.chronicle.log.calls)
    (transmitted : e.chronicle.session.transmitted = d.chronicle.session.transmitted)
    (fs : List Frame)
    (texts : e.chronicle.log.texts =
      d.chronicle.log.texts ++ fs.map d.chronicle.session.codec.encode)
    (replies : ∀ f ∈ fs, f.callId? = none ∧ e.chronicle.Justified f)
    (waiting : ∀ q, q ∈ e.chronicle.session.queue ∨ e.hand = some q → q.Asked e.chronicle.asked)
    (slot : e.chronicle.session.slot = d.chronicle.session.slot ∨
      e.chronicle.session.slot = .empty)
    (os : List (ℕ × ℕ × Except CallFailure Value))
    (settlements : e.chronicle.log.settlements = d.chronicle.log.settlements ++ os)
    (ends : ∀ x ∈ os, (∃ f, x.2.2 = .error f ∧ f.fromPeer = false) ∨
      e.chronicle.Answered x.1 x.2.2) : Wired e := by
  refine ⟨?_, ?_, waiting, ?_, ?_⟩
  · rw [calls, transmitted, h.ids]
    refine List.map_congr_left fun i _ => ?_
    rw [Session.idOf, Session.idOf, grows.label]
  · obtain ⟨gs, before, ids, justified⟩ := h.frames
    refine ⟨gs ++ fs, ?_, ?_, ?_⟩
    · rw [texts, before, grows.codec, List.map_append]
    -- what is new is no call
    · have none : fs.filterMap Frame.callId? = [] :=
        List.filterMap_eq_nil_iff.2 fun f hf => (replies f hf).1
      rw [List.filterMap_append, none, List.append_nil, ids, calls]
    · intro f hf
      rcases List.mem_append.1 hf with hf | hf
      · exact (justified f hf).mono grows
      · exact (replies f hf).2
  · intro call held
    rcases slot with same | empty
    · obtain ⟨called, m, v, asked, confirmation⟩ := h.held call (by rw [← same, held])
      rw [calls]
      exact ⟨called, m, v, grows.asked_getElem? asked, confirmation⟩
    · rw [held] at empty
      cases empty
  · intro k u o hk
    rw [settlements] at hk
    rcases List.mem_append.1 hk with old | new
    · exact (h.outcomes k u o old).imp_right (·.mono grows)
    · exact ends _ new

/-- So it stays if nothing is transmitted. -/
theorem quiet {es : List Effect} (h : Wired d) (grows : Grows d.chronicle e.chronicle)
    (log : e.chronicle.log = d.chronicle.log ++ es.map fun x => (d.chronicle.now, x))
    (silent : ∀ x ∈ es, x.transmits = false)
    (transmitted : e.chronicle.session.transmitted = d.chronicle.session.transmitted)
    (waiting : ∀ q, q ∈ e.chronicle.session.queue ∨ e.hand = some q → q.Asked e.chronicle.asked)
    (slot : e.chronicle.session.slot = d.chronicle.session.slot ∨
      e.chronicle.session.slot = .empty)
    (ends : ∀ k o, .settled k o ∈ es → (∃ f, o = .error f ∧ f.fromPeer = false) ∨
      e.chronicle.Answered k o) : Wired e := by
  have none : Log.calls (es.map fun x => (d.chronicle.now, x)) = [] ∧
      Log.texts (es.map fun x => (d.chronicle.now, x)) = [] := by
    refine ⟨List.filterMap_eq_nil_iff.2 ?_, List.filterMap_eq_nil_iff.2 ?_⟩ <;>
    · intro x hx
      obtain ⟨y, hy, rfl⟩ := List.mem_map.1 hx
      have := silent y hy
      cases y <;> first | rfl | cases this
  refine h.keep grows (by simp [log, none.1]) transmitted [] (by simp [log, none.2]) (by simp)
    waiting slot (Log.settlements (es.map fun x => (d.chronicle.now, x))) (by simp [log]) ?_
  intro x hx
  obtain ⟨y, hy, told⟩ := List.mem_filterMap.1 hx
  obtain ⟨z, hz, rfl⟩ := List.mem_map.1 hy
  cases z with
  | settled k o =>
    cases told
    exact ends k o hz
  | _ => cases told

/-- So it stays if nothing is brought about at all. -/
theorem still (h : Wired d) (grows : Grows d.chronicle e.chronicle)
    (log : e.chronicle.log = d.chronicle.log)
    (transmitted : e.chronicle.session.transmitted = d.chronicle.session.transmitted)
    (waiting : ∀ q, q ∈ e.chronicle.session.queue ∨ e.hand = some q → q.Asked e.chronicle.asked)
    (slot : e.chronicle.session.slot = d.chronicle.session.slot) : Wired e := by
  have log : e.chronicle.log =
      d.chronicle.log ++ ([] : List Effect).map fun x => (d.chronicle.now, x) := by simp [log]
  exact h.quiet grows log (by simp) transmitted waiting (.inl slot) (by simp)

/-- The call in hand is transmitted under the next id. -/
theorem transmit {q : QueuedCall} {d : Chronicle} (h : Wired ⟨c, some q⟩) (grows : Grows c d)
    (calls : d.log.calls = c.log.calls ++ [(q.owner.ticket, c.session.nextId)])
    (texts : d.log.texts = c.log.texts ++
      [c.session.codec.encode (.call c.session.nextId q.action q.payload)])
    (settlements : d.log.settlements = c.log.settlements)
    (slot : d.session.slot = ⟨some (c.turn.pending q)⟩) (queue : d.session.queue = c.session.queue)
    (transmitted : d.session.transmitted = c.session.transmitted + 1) : Wired ⟨d, none⟩ := by
  obtain ⟨m, v, asked, fit, confirmation, action⟩ := h.waiting q (.inr rfl)
  obtain ⟨fs, before, ids, justified⟩ := h.frames
  have asked' := grows.asked_getElem? asked
  -- the frame that is transmitted is justified by the call that it is
  have mine : (q.owner.ticket, c.session.nextId) ∈ d.log.calls := by
    rw [calls]
    exact List.mem_append_right _ List.mem_cons_self
  have label : d.session.idOf = c.session.idOf := by
    funext i
    rw [Session.idOf, Session.idOf, grows.label]
  refine ⟨?_, ⟨fs ++ [.call c.session.nextId q.action q.payload], ?_, ?_, ?_⟩, ?_, ?_, ?_⟩
  · rw [calls, List.map_append, h.ids, transmitted, label, List.range_succ, List.map_append]
    rfl
  · rw [texts, before, grows.codec, List.map_append]
    rfl
  · rw [List.filterMap_append, ids, calls, List.map_append]
    rfl
  · intro f hf
    rcases List.mem_append.1 hf with hf | hf
    · exact (justified f hf).mono grows
    · rw [List.mem_singleton.1 hf, action]
      exact .call mine asked' fit
  · rintro q' (hq | hq)
    · exact (h.waiting q' (.inl (queue ▸ hq))).mono grows
    · cases hq
  · intro call held
    rw [slot] at held
    cases held
    exact ⟨mine, m, v, asked', confirmation⟩
  · intro k u o hk
    rw [settlements] at hk
    exact (h.outcomes k u o hk).imp_right (·.mono grows)

theorem own (h : Wired d) (accounts : Accounts d) (step : Own d e) : Wired e := by
  have grows := Grows.own step
  cases step with
  | turnAway why =>
    refine h.quiet grows ((Chronicle.log_ask ..).trans (Chronicle.log_becomes ..))
      (by simp [Effect.transmits]) rfl (fun q hq => (h.waiting q hq).mono grows) (.inl rfl) ?_
    simpa using Or.inl why.fromPeer
  | enqueue fit =>
    refine h.quiet grows ((Chronicle.log_ask ..).trans (Chronicle.log_becomes ..))
      (by simp [Effect.transmits]) rfl ?_ (.inl rfl) (by simp)
    rintro q (hq | hq)
    · rcases List.mem_append.1 hq with hq | hq
      · exact (h.waiting q (.inl hq)).mono grows
      · rw [List.mem_singleton.1 hq]
        exact Session.nextCall_asked accounts.asked fit
    · cases hq
  | take fit =>
    refine h.quiet grows ((Chronicle.log_ask ..).trans (Chronicle.log_becomes ..))
      (by simp [Effect.transmits]) rfl ?_ (.inl rfl) (by simp)
    rintro q (hq | hq)
    · exact (h.waiting q (.inl hq)).mono grows
    · cases hq
      exact Session.nextCall_asked accounts.asked fit
  | takeNext isOpen free queue =>
    refine h.quiet grows (Chronicle.log_becomes ..) (by simp) rfl ?_ (.inl rfl) (by simp)
    intro q' hq
    refine h.waiting q' (.inl ?_)
    rw [queue]
    rcases hq with hq | hq
    · exact List.mem_cons_of_mem _ hq
    · cases hq
      exact List.mem_cons_self
  | untimed =>
    refine h.quiet grows (Chronicle.log_becomes ..) (by simp [Effect.transmits]) rfl ?_ (.inl rfl)
      (by simp [CallFailure.fromPeer])
    exact fun q' hq => h.waiting q' (.inl (by simpa using hq))
  | miss =>
    refine h.quiet grows (Chronicle.log_becomes ..) (by simp [Effect.transmits]) rfl ?_ (.inr rfl)
      (by simp [CallFailure.fromPeer])
    exact fun q' hq => h.waiting q' (.inl (by simpa using hq))
  | transmit loop linked =>
    refine h.transmit grows ?_ ?_ ?_ rfl rfl rfl <;> simp [Chronicle.log_becomes]
  | @answer c text f id raw call decodes answers slot same =>
    obtain ⟨called, m, v, asked, confirmation⟩ := h.held call slot
    refine h.quiet grows
      ((Chronicle.log_owing ..).trans ((Chronicle.log_hears ..).trans (Chronicle.log_becomes ..)))
      (by simp [Effect.transmits]) rfl h.waiting (.inr rfl) fun k o settled => ?_
    cases List.mem_singleton.1 settled
    -- the text that is heard is the answer
    refine .inr ⟨m, v, id, text, f, raw, asked, ?_, ?_, decodes, answers, ?_⟩
    · simpa [Chronicle.log_becomes, same] using called
    · exact List.mem_append_right _ List.mem_cons_self
    · rw [← confirmation]
  | lapse =>
    exact h.quiet grows ((Chronicle.log_owing ..).trans (Chronicle.log_becomes ..))
      (by simp [Effect.transmits]) rfl h.waiting (.inr rfl) (by simp [CallFailure.fromPeer])
  | stale | beginClose | endClose =>
    exact h.quiet grows (Chronicle.log_becomes ..) (by simp [Effect.transmits]) rfl h.waiting
      (.inl rfl) (by simp)
  | handedOn =>
    exact h.still grows rfl rfl h.waiting rfl
  | abandon =>
    refine h.quiet grows (Chronicle.log_becomes ..) ?_ rfl (by simp) (.inr rfl) ?_
    · intro x hx
      obtain ⟨o, -, rfl⟩ := List.mem_map.1 hx
      rfl
    · intro k o settled
      obtain ⟨owner, -, same⟩ := List.mem_map.1 settled
      cases same
      exact .inl ⟨.closing, rfl, rfl⟩

/-- What the peer asks is answered with justified frames, and changes no own call. -/
theorem inbound {d : Chronicle} (h : Wired ⟨c, none⟩) (step : Inbound c d) : Wired ⟨d, none⟩ := by
  have grows := Grows.inbound step
  have same := step.same
  -- only replies and refusals are new
  have fixed : ∀ fs : List Frame,
      d.log.texts = c.log.texts ++ fs.map c.session.codec.encode →
      (∀ f ∈ fs, f.callId? = none ∧ d.Justified f) →
      d.session.transmitted = c.session.transmitted → Wired ⟨d, none⟩ := by
    intro fs texts replies transmitted
    refine h.keep grows same.calls transmitted fs texts replies ?_ (.inl same.slot) [] ?_ (by simp)
    · rw [same.queue, same.asked]
      exact h.waiting
    · rw [same.settlements, List.append_nil]
  -- the frames of a reply, if it is transmitted
  have answers : ∀ (call : InboundCall) (result : Except DispatchFault Json),
      (call, result) ∈ d.log.dispatches → ∃ fs : List Frame,
        Log.texts ((c.session.replies call result).map fun e => (c.now, e)) =
          fs.map c.session.codec.encode ∧ ∀ f ∈ fs, f.callId? = none ∧ d.Justified f := by
    intro call result dispatched
    unfold Session.replies
    split
    · refine ⟨[c.session.registry.reply call.id result], rfl, fun f hf => ?_⟩
      rw [List.mem_singleton.1 hf]
      refine ⟨by cases result <;> rfl, ?_⟩
      rw [← grows.registry]
      exact .reply dispatched
    · exact ⟨[], rfl, by simp⟩
  cases step with
  | @refuse text fault id fails answerable linked =>
    refine fixed [.refusal id fault.code c.session.version Json.empty] ?_ ?_ rfl
    · simp [Chronicle.log_becomes]
    · intro f hf
      rw [List.mem_singleton.1 hf]
      exact ⟨rfl, .refusal id (List.mem_append_right _ List.mem_cons_self) fails⟩
  | @decline call rest fault =>
    obtain ⟨fs, texts, replies⟩ := answers call (.error fault) (by simp [Chronicle.log_becomes])
    refine fixed fs ?_ replies rfl
    rw [← texts, Chronicle.log_becomes]
    simp
  | @leave call handler answer running =>
    obtain ⟨fs, texts, replies⟩ := answers call (Registry.conclude handler.message answer)
      (by simp [Chronicle.log_becomes])
    refine fixed fs ?_ replies rfl
    rw [← texts, Chronicle.log_becomes]
    simp
  | unmatched | buffer | skip | takeUp | enter | ignore | drop =>
    refine fixed [] ?_ (by simp) rfl
    simp [Chronicle.log_becomes]

/-- **What is transmitted is justified, and calls end with what the peer answered or with a failure
of the session's own.** -/
theorem of_reachable (h : d.Reachable) : Wired d := by
  induction h with
  | opened =>
    refine ⟨rfl, ⟨[], rfl, rfl, by simp⟩, ?_, ?_, ?_⟩
    · rintro q (hq | hq) <;> cases hq
    · intro call slot
      cases slot
    · intro k u o hk
      cases hk
  | small reachable step ih =>
    cases step with
    | own step => exact ih.own (.of_reachable reachable) step
    | inbound step => exact ih.inbound step
    | unlink =>
      exact ih.still (.small .unlink) rfl rfl ih.waiting rfl
  | ambient _ step ih =>
    refine ih.still (.ambient step) step.log (by rw [step.session]) ?_ (by rw [step.session])
    rw [step.session, step.asked]
    exact ih.waiting

/-- **No id is used twice.** -/
theorem ids_nodup (h : Wired d) : (d.chronicle.log.calls.map Prod.snd).Nodup := by
  rw [h.ids]
  exact List.nodup_range.map (Session.idOf_injective _)

end Wired

end ChargeLink

import ChargeLink.Proofs.Session.Growth

/-!
# Calls of the peer

Calls are answered or refused one at a time, in the order in which they were
heard. A handler is entered only for a call that passes the registry, and its
call is dispatched when it ends.

* `Served.of_reachable`: how the calls heard, entered and dispatched belong together.
-/

namespace ChargeLink

variable {c d : Chronicle}

/-- The call that a text is. -/
def Codec.call? (codec : Codec) (text : String) : Option InboundCall :=
  match codec.decode text with
  | .ok (.call id action payload) => some ⟨id, action, payload⟩
  | _ => none

/-- An answer is no call. -/
theorem Codec.call?_of_answer {codec : Codec} {text id : String} {f : Frame} {raw : RawOutcome}
    (decodes : codec.decode text = .ok f) (answers : f.answer? = some (id, raw)) :
    codec.call? text = none := by
  unfold Codec.call?
  rw [decodes]
  cases f with
  | call => cases answers
  | result | error => rfl

/-- The calls of the peer, in the order in which they were heard. -/
def Chronicle.arrivals (c : Chronicle) : List InboundCall :=
  c.heard.filterMap c.session.codec.call?

/-- The call whose handler is running. -/
def Session.current (s : Session) : List InboundCall :=
  s.running.toList.map Prod.fst

/-- Calls were dispatched in the order of their arrival, then the current one is, then those in the
inbox; the entered ones are among them, and of these all but the current one have returned. -/
structure Served (c : Chronicle) : Prop where
  arrivals : (c.log.dispatches.map Prod.fst ++ (c.session.current ++ c.session.inbox)).Sublist
    c.arrivals
  entries : (c.log.entries.map Prod.fst).Sublist
    (c.log.dispatches.map Prod.fst ++ c.session.current)
  returns : c.log.entries.map Prod.fst = c.log.returns.map Prod.fst ++ c.session.current
  running : ∀ call h, c.session.running = some (call, h) →
    ∃ request, (call, h, request) ∈ c.log.entries
  accepted : ∀ call h request, (call, h, request) ∈ c.log.entries →
    c.session.registry.accept call.action call.payload = .ok (h, request)
  outcome : ∀ call result, (call, result) ∈ c.log.dispatches →
    (∃ fault, c.session.registry.accept call.action call.payload = .error fault ∧
      result = .error fault) ∨
    ∃ h request answer, (call, h, request) ∈ c.log.entries ∧ (call, answer) ∈ c.log.returns ∧
      result = Registry.conclude h.message answer

/-- Two chronicles agree in what concerns the calls of the peer. -/
structure SameService (c d : Chronicle) : Prop where
  registry : d.session.registry = c.session.registry
  inbox : d.session.inbox = c.session.inbox
  running : d.session.running = c.session.running
  arrivals : d.arrivals = c.arrivals
  entries : d.log.entries = c.log.entries
  returns : d.log.returns = c.log.returns
  dispatches : d.log.dispatches = c.log.dispatches

/-- Own calls leave the calls of the peer alone. -/
theorem Own.service {d e : Desk} (h : Own d e) : SameService d.chronicle e.chronicle := by
  cases h with
  | answer decodes answers slot same =>
    refine ⟨rfl, rfl, rfl, ?_, ?_, ?_, ?_⟩
    · simp [Chronicle.arrivals, Chronicle.hears, Chronicle.owing, Chronicle.becomes,
        Codec.call?_of_answer decodes answers]
    all_goals simp [Chronicle.log_becomes]
  | _ => refine ⟨rfl, rfl, rfl, rfl, ?_, ?_, ?_⟩ <;> simp [Chronicle.log_becomes]

namespace Served

theorem same (h : Served c) (same : SameService c d) : Served d := by
  constructor
  · rw [same.dispatches, Session.current, same.running, same.inbox, same.arrivals]
    exact h.arrivals
  · rw [same.entries, same.dispatches, Session.current, same.running]
    exact h.entries
  · rw [same.entries, same.returns, Session.current, same.running]
    exact h.returns
  · rw [same.running, same.entries]
    exact h.running
  · rw [same.entries, same.registry]
    exact h.accepted
  · rw [same.dispatches, same.registry, same.entries, same.returns]
    exact h.outcome

/-- A text arrives, and maybe it is a call. -/
theorem arrivals_hears (c : Chronicle) (text : String) :
    (c.hears text).arrivals = c.arrivals ++ (c.session.codec.call? text).toList := by
  show (c.heard ++ [text]).filterMap c.session.codec.call? = _
  rw [List.filterMap_append]
  cases h : c.session.codec.call? text <;> simp [h, Chronicle.arrivals]

/-- A text that is no call is heard. -/
theorem hears_other {text : String} (h : Served c) (noCall : c.session.codec.call? text = none) :
    Served (c.hears text) := by
  refine h.same ⟨rfl, rfl, rfl, ?_, rfl, rfl, rfl⟩
  rw [arrivals_hears, noCall]
  simp

/-- Something is brought about that concerns no call of the peer. -/
theorem becomes_other {e : Effect} (h : Served c)
    (entries : Log.entries [(c.now, e)] = []) (returns : Log.returns [(c.now, e)] = [])
    (dispatches : Log.dispatches [(c.now, e)] = []) :
    Served (c.becomes c.session c.timers [e]) := by
  refine h.same ⟨rfl, rfl, rfl, rfl, ?_, ?_, ?_⟩
  · simpa [Chronicle.log_becomes] using entries
  · simpa [Chronicle.log_becomes] using returns
  · simpa [Chronicle.log_becomes] using dispatches

/-- A call waits for the worker. -/
theorem buffer {text id action : String} {payload : Json} (h : Served c)
    (decodes : c.session.codec.decode text = .ok (.call id action payload)) :
    Served ((c.becomes { c.session with inbox := c.session.inbox ++ [⟨id, action, payload⟩] }
      c.timers []).hears text) := by
  obtain ⟨arrivals, entries, returns, running, accepted, outcome⟩ := h
  have call : c.session.codec.call? text = some ⟨id, action, payload⟩ := by
    simp [Codec.call?, decodes]
  have log : ((c.becomes { c.session with inbox := c.session.inbox ++ [⟨id, action, payload⟩] }
      c.timers []).hears text).log = c.log := by
    simp [Chronicle.log_becomes]
  -- the call arrives and is the last one in the inbox
  refine ⟨?_, log ▸ entries, log ▸ returns, log ▸ running, log ▸ accepted, log ▸ outcome⟩
  rw [log, arrivals_hears]
  have goal := arrivals.append (List.Sublist.refl [⟨id, action, payload⟩])
  rw [List.append_assoc, List.append_assoc] at goal
  rw [Chronicle.session_becomes, call]
  exact goal

/-- A call is dropped. -/
theorem skip {call : InboundCall} {rest : List InboundCall} (h : Served c)
    (inbox : c.session.inbox = call :: rest) :
    Served (c.becomes { c.session with inbox := rest } c.timers []) := by
  obtain ⟨arrivals, entries, returns, running, accepted, outcome⟩ := h
  have log : (c.becomes { c.session with inbox := rest } c.timers []).log = c.log := by
    simp [Chronicle.log_becomes]
  refine ⟨?_, log ▸ entries, log ▸ returns, log ▸ running, log ▸ accepted, log ▸ outcome⟩
  -- the first of the inbox is lost, and the others keep their order
  rw [inbox] at arrivals
  rw [log]
  refine List.Sublist.trans ?_ arrivals
  exact .append_left (.append_left (List.sublist_cons_self ..) _) _

/-- A call is refused. -/
theorem decline {call : InboundCall} {rest : List InboundCall} {fault : DispatchFault}
    (h : Served c) (idle : c.session.running = none) (inbox : c.session.inbox = call :: rest)
    (fails : c.session.registry.accept call.action call.payload = .error fault) :
    Served (c.becomes { c.session with inbox := rest, takenUp := false } c.timers
      (.dispatched call (.error fault) :: c.session.replies call (.error fault))) := by
  obtain ⟨arrivals, entries, returns, running, accepted, outcome⟩ := h
  -- the worker is idle, so nothing stands between the dispatched calls and the inbox
  have current : c.session.current = [] := by simp [Session.current, idle]
  rw [inbox, current] at arrivals
  rw [current] at entries returns
  set d := c.becomes { c.session with inbox := rest, takenUp := false } c.timers
    (.dispatched call (.error fault) :: c.session.replies call (.error fault)) with hd
  have dispatches : d.log.dispatches = c.log.dispatches ++ [(call, .error fault)] := by
    simp [hd, Chronicle.log_becomes]
  have entered : d.log.entries = c.log.entries := by simp [hd, Chronicle.log_becomes]
  have returned : d.log.returns = c.log.returns := by simp [hd, Chronicle.log_becomes]
  have idle' : d.session.current = [] := current
  refine ⟨?_, ?_, ?_, ?_, ?_, ?_⟩
  · rw [dispatches, idle', List.map_append, List.append_assoc]
    exact arrivals
  · rw [entered, dispatches, idle', List.map_append, List.append_nil]
    rw [List.append_nil] at entries
    exact entries.trans (List.sublist_append_left ..)
  · rw [entered, returned, idle']
    exact returns
  · rw [entered]
    exact running
  · rw [entered]
    exact accepted
  · rw [dispatches, entered, returned]
    intro call' result' h
    rcases List.mem_append.1 h with h | h
    · exact outcome call' result' h
    · cases List.mem_singleton.1 h
      exact .inl ⟨fault, fails, rfl⟩

/-- The handler of a call is entered. -/
theorem enter {call : InboundCall} {rest : List InboundCall} {h : Handler} {request : Value}
    (served : Served c) (idle : c.session.running = none)
    (inbox : c.session.inbox = call :: rest)
    (accepts : c.session.registry.accept call.action call.payload = .ok (h, request)) :
    Served (c.becomes
      { c.session with inbox := rest, takenUp := false, running := some (call, h) } c.timers
      [.entered call h request]) := by
  obtain ⟨arrivals, entries, returns, running, accepted, outcome⟩ := served
  -- the first of the inbox becomes the current call
  have current : c.session.current = [] := by simp [Session.current, idle]
  rw [inbox, current] at arrivals
  rw [current, List.append_nil] at entries returns
  set d := c.becomes
    { c.session with inbox := rest, takenUp := false, running := some (call, h) } c.timers
    [.entered call h request] with hd
  have dispatches : d.log.dispatches = c.log.dispatches := by simp [hd, Chronicle.log_becomes]
  have entered : d.log.entries = c.log.entries ++ [(call, h, request)] := by
    simp [hd, Chronicle.log_becomes]
  have returned : d.log.returns = c.log.returns := by simp [hd, Chronicle.log_becomes]
  have busy : d.session.current = [call] := rfl
  refine ⟨?_, ?_, ?_, ?_, ?_, ?_⟩
  · rw [dispatches, busy]
    exact arrivals
  · rw [entered, dispatches, busy, List.map_append]
    exact entries.append (.refl _)
  · rw [entered, returned, busy, List.map_append, returns]
    rfl
  · intro call' h' same
    cases same
    rw [entered]
    exact ⟨request, List.mem_append_right _ List.mem_cons_self⟩
  · rw [entered]
    intro call' h' request' mem
    rcases List.mem_append.1 mem with mem | mem
    · exact accepted call' h' request' mem
    · cases List.mem_singleton.1 mem
      exact accepts
  · rw [dispatches, entered, returned]
    intro call' result' mem
    rcases outcome call' result' mem with fault | ⟨h', request', answer, mem, rest⟩
    · exact .inl fault
    · exact .inr ⟨h', request', answer, List.mem_append_left _ mem, rest⟩

/-- The handler of a call ends. -/
theorem leave {call : InboundCall} {h : Handler} (served : Served c) (answer : Answer)
    (busy : c.session.running = some (call, h)) :
    Served (c.becomes { c.session with running := none } c.timers
      (.returned call answer :: .dispatched call (Registry.conclude h.message answer) ::
        c.session.replies call (Registry.conclude h.message answer))) := by
  obtain ⟨arrivals, entries, returns, running, accepted, outcome⟩ := served
  -- the current call joins the dispatched ones
  have current : c.session.current = [call] := by simp [Session.current, busy]
  rw [current] at arrivals entries returns
  set result := Registry.conclude h.message answer with hresult
  set d := c.becomes { c.session with running := none } c.timers
    (.returned call answer :: .dispatched call result :: c.session.replies call result) with hd
  have dispatches : d.log.dispatches = c.log.dispatches ++ [(call, result)] := by
    simp [hd, Chronicle.log_becomes]
  have entered : d.log.entries = c.log.entries := by simp [hd, Chronicle.log_becomes]
  have returned : d.log.returns = c.log.returns ++ [(call, answer)] := by
    simp [hd, Chronicle.log_becomes]
  have idle : d.session.current = [] := rfl
  refine ⟨?_, ?_, ?_, ?_, ?_, ?_⟩
  · rw [dispatches, idle, List.map_append, List.append_assoc]
    exact arrivals
  · rw [entered, dispatches, idle, List.map_append, List.append_nil]
    exact entries
  · rw [entered, returned, idle, List.map_append, List.append_nil]
    exact returns
  · intro call' h' same
    cases same
  · rw [entered]
    exact accepted
  · rw [dispatches, entered, returned]
    intro call' result' mem
    rcases List.mem_append.1 mem with mem | mem
    · rcases outcome call' result' mem with fault | ⟨h', request', answer', mem, mem', same⟩
      · exact .inl fault
      · exact .inr ⟨h', request', answer', mem, List.mem_append_left _ mem', same⟩
    · cases List.mem_singleton.1 mem
      obtain ⟨request, entry⟩ := running call h busy
      exact .inr ⟨h, request, answer, entry, List.mem_append_right _ List.mem_cons_self, hresult⟩

theorem inbound (h : Served c) (step : Inbound c d) : Served d := by
  cases step with
  | unmatched decodes answers other =>
    exact hears_other (h.becomes_other rfl rfl rfl) (Codec.call?_of_answer decodes answers)
  | refuse fails answerable linked =>
    exact hears_other (h.becomes_other rfl rfl rfl) (by simp [Codec.call?, fails])
  | drop fails silent => exact h.hears_other (by simp [Codec.call?, fails])
  | ignore decodes idle =>
    -- the call arrives, and goes nowhere
    refine ⟨?_, h.entries, h.returns, h.running, h.accepted, h.outcome⟩
    rw [arrivals_hears]
    exact h.arrivals.trans (List.sublist_append_left ..)
  | buffer decodes isOpen loop => exact h.buffer decodes
  | skip idle left inbox ended => exact h.skip inbox
  | takeUp => exact h.same ⟨rfl, rfl, rfl, rfl, by simp [Chronicle.log_becomes],
      by simp [Chronicle.log_becomes], by simp [Chronicle.log_becomes]⟩
  | decline idle taken inbox fails => exact h.decline idle inbox fails
  | enter idle taken inbox accepts => exact h.enter idle inbox accepts
  | leave answer busy => exact h.leave answer busy

/-- **Calls are served in order, one at a time.** -/
theorem of_reachable {d : Desk} (h : d.Reachable) : Served d.chronicle := by
  induction h with
  | opened =>
    refine ⟨.slnil, .slnil, rfl, ?_, ?_, ?_⟩ <;>
      simp [Chronicle.opened, Chronicle.log, Turn.openSession, Turn.publish, Turn.emit]
  | small _ step ih =>
    cases step with
    | own step => exact ih.same step.service
    | inbound step => exact ih.inbound step
    | unlink => exact ih.same ⟨rfl, rfl, rfl, rfl, rfl, rfl, rfl⟩
  | ambient _ step ih =>
    refine ih.same ⟨?_, ?_, ?_, ?_, ?_, ?_, ?_⟩
    all_goals simp only [step.session, step.log]
    cases step <;> rfl

end Served

end ChargeLink

import ChargeLink.Proofs.Session.Pair
import ChargeLink.Proofs.Session.Traffic

/-!
# Replies to the calls of the peer

The worker takes one call after the other from the inbox, so the replies are
those to the first of the calls that arrived, in their order, one for each. If
the session is open and has a transport, then a call without a reply is at its
handler or in the inbox, and whatever the handlers answer, the worker gets to
the end of the inbox.

* `InOrder.of_reachable`: where each call is that has arrived.
* `Replied.of_reachable`: each dispatched call has its reply while there is a transport.
* `Desk.Reachable.texts_perm`: no other text is transmitted for a call of the peer.
* `Chronicle.unserved_work`: the worker gets to the end of the inbox.
* `Chronicle.Reachable.replies_in_order`: so it is in every run.
-/

namespace ChargeLink

variable {c d : Chronicle}

/-! ## Where a call is -/

/-- The calls that were taken and not answered: the current one, then the inbox. -/
def Session.unserved (s : Session) : List InboundCall :=
  s.current ++ s.inbox

/-- The call that the worker has taken up and not yet answered. -/
def Session.taken (s : Session) : List InboundCall :=
  if s.takenUp then s.inbox.head?.toList else []

/-- The calls that the worker has taken up are the first of those that were not answered. -/
theorem Session.taken_prefix (s : Session) : s.current ++ s.taken <+: s.unserved := by
  refine (List.prefix_append_right_inj _).2 ?_
  rw [taken]
  split
  · cases s.inbox <;> simp
  · exact List.nil_prefix

/-- The calls that were dispatched, the current one and the inbox are the calls that have arrived,
in their order. After the end of the session the rest of the inbox is lost, but for the call that
has been taken up, and nothing before it. -/
structure InOrder (c : Chronicle) : Prop where
  whole : c.session.phase = .opened → c.timers.hasLoop = true →
    c.log.dispatches.map Prod.fst ++ c.session.unserved = c.arrivals
  begun : c.log.dispatches.map Prod.fst ++ (c.session.current ++ c.session.taken) <+: c.arrivals
  idle : c.timers.hasLoop = false → c.session.inbox = []

namespace InOrder

/-- What concerns no call of the peer leaves their order as it is. -/
theorem same (h : InOrder c) (same : SameService c d) (takenUp : d.session.takenUp =
    c.session.takenUp) (loop : d.timers.hasLoop = c.timers.hasLoop)
    (phase : d.session.phase = .opened → c.session.phase = .opened) : InOrder d := by
  constructor
  · intro isOpen looped
    rw [same.dispatches, same.arrivals, Session.unserved, Session.current, same.running, same.inbox]
    exact h.whole (phase isOpen) (loop ▸ looped)
  · rw [same.dispatches, same.arrivals, Session.current, same.running, Session.taken, takenUp,
      same.inbox]
    exact h.begun
  · rw [loop, same.inbox]
    exact h.idle

/-- While no call has been lost, what is taken up is the first of what was not answered. -/
theorem of_whole (looped : c.timers.hasLoop = true)
    (whole : c.log.dispatches.map Prod.fst ++ c.session.unserved = c.arrivals) : InOrder c := by
  refine ⟨fun _ _ => whole, ?_, fun none => ?_⟩
  · rw [← whole]
    exact (List.prefix_append_right_inj _).2 c.session.taken_prefix
  · cases none.symm.trans looped

/-- An event loop is there if a call waits. -/
theorem loop_of_inbox {call : InboundCall} {rest : List InboundCall} (h : InOrder c)
    (inbox : c.session.inbox = call :: rest) : c.timers.hasLoop = true := by
  rw [← Bool.not_eq_false]
  intro none
  cases inbox.symm.trans (h.idle none)

/-- The first of the inbox is answered: it is current or has been dispatched now. -/
theorem take {call : InboundCall} {rest : List InboundCall} (h : InOrder c)
    (idle : c.session.running = none) (takenUp : c.session.takenUp = true)
    (inbox : c.session.inbox = call :: rest) (loop : d.timers.hasLoop = c.timers.hasLoop)
    (arrivals : d.arrivals = c.arrivals) (phase : d.session.phase = c.session.phase)
    (taken : d.log.dispatches.map Prod.fst ++ d.session.current =
      c.log.dispatches.map Prod.fst ++ [call])
    (left : d.session.inbox = rest) (free : d.session.takenUp = false) : InOrder d := by
  refine ⟨fun isOpen looped => ?_, ?_, fun none => ?_⟩
  · have whole := h.whole (phase ▸ isOpen) (loop ▸ looped)
    rw [Session.unserved, Session.current, idle, inbox] at whole
    rw [Session.unserved, left, ← List.append_assoc, taken, arrivals, ← whole]
    simp
  · have begun := h.begun
    rw [Session.current, idle, Session.taken, takenUp, inbox] at begun
    rw [Session.taken, free, ← List.append_assoc, taken, arrivals]
    simpa using begun
  · cases (loop ▸ none).symm.trans (h.loop_of_inbox inbox)

/-- A call arrives, and is the last of the inbox. -/
theorem arrive (call : InboundCall) (h : InOrder c) (isOpen : c.session.phase = .opened)
    (looped : c.timers.hasLoop = true) (loop : d.timers.hasLoop = c.timers.hasLoop)
    (arrivals : d.arrivals = c.arrivals ++ [call]) (running : d.session.running = c.session.running)
    (inbox : d.session.inbox = c.session.inbox ++ [call])
    (dispatches : d.log.dispatches = c.log.dispatches) : InOrder d := by
  refine .of_whole (loop.trans looped) ?_
  rw [dispatches, arrivals, ← h.whole isOpen looped, Session.unserved, Session.unserved,
    Session.current, running, inbox]
  simp [Session.current]

/-- The handler of the current call ends, and the call has been dispatched. -/
theorem leave (h : InOrder c) (loop : d.timers.hasLoop = c.timers.hasLoop)
    (arrivals : d.arrivals = c.arrivals)
    (phase : d.session.phase = .opened → c.session.phase = .opened)
    (ended : d.log.dispatches.map Prod.fst ++ d.session.current =
      c.log.dispatches.map Prod.fst ++ c.session.current)
    (inbox : d.session.inbox = c.session.inbox) (takenUp : d.session.takenUp = c.session.takenUp) :
    InOrder d := by
  refine ⟨fun isOpen looped => ?_, ?_, ?_⟩
  · rw [arrivals, ← h.whole (phase isOpen) (loop ▸ looped), Session.unserved, Session.unserved,
      inbox, ← List.append_assoc, ended, List.append_assoc]
  · rw [arrivals, ← List.append_assoc, ended, Session.taken, takenUp, inbox, List.append_assoc]
    exact h.begun
  · rw [loop, inbox]
    exact h.idle

/-- A text that is no call changes nothing. -/
theorem hears {text : String} (h : InOrder c) (noCall : c.session.codec.call? text = none) :
    InOrder (c.hears text) := by
  refine h.same ⟨rfl, rfl, rfl, ?_, rfl, rfl, rfl⟩ rfl rfl id
  rw [Served.arrivals_hears, noCall]
  exact List.append_nil _

/-- Nor does anything that is brought about for other reasons. -/
theorem becomes {e : Effect} (h : InOrder c) (entries : Log.entries [(c.now, e)] = [])
    (returns : Log.returns [(c.now, e)] = []) (dispatches : Log.dispatches [(c.now, e)] = []) :
    InOrder (c.becomes c.session c.timers [e]) := by
  refine h.same ⟨rfl, rfl, rfl, rfl, ?_, ?_, ?_⟩ rfl rfl id
  · simpa [Chronicle.log_becomes] using entries
  · simpa [Chronicle.log_becomes] using returns
  · simpa [Chronicle.log_becomes] using dispatches

theorem inbound (h : InOrder c) (step : Inbound c d) : InOrder d := by
  cases step with
  | unmatched decodes answers =>
    exact (h.becomes rfl rfl rfl).hears (Codec.call?_of_answer decodes answers)
  | refuse fails => exact (h.becomes rfl rfl rfl).hears (by simp [Codec.call?, fails])
  | drop fails => exact h.hears (by simp [Codec.call?, fails])
  | ignore decodes idle =>
    -- the call is lost, but the session is not open or could take none
    refine ⟨fun isOpen loop => absurd ⟨isOpen, loop⟩ idle, ?_, h.idle⟩
    rw [Served.arrivals_hears]
    exact h.begun.trans (List.prefix_append ..)
  | @buffer text id action payload decodes isOpen loop =>
    have call : c.session.codec.call? text = some ⟨id, action, payload⟩ := by
      simp [Codec.call?, decodes]
    refine h.arrive ⟨id, action, payload⟩ isOpen loop rfl ?_ rfl rfl ?_
    · rw [Served.arrivals_hears, Chronicle.session_becomes, call]
      rfl
    · simp [Chronicle.log_becomes]
  | skip idle left inbox ended =>
    -- the first of the inbox is lost, but the session is not open any more
    refine ⟨fun isOpen => absurd isOpen ended, ?_, fun none => ?_⟩
    · have begun := h.begun
      rw [Session.taken, left] at begun
      rw [Chronicle.log_becomes, List.map_nil, List.append_nil]
      show _ ++ (c.session.current ++ if c.session.takenUp then _ else []) <+: c.arrivals
      rw [left]
      exact begun
    · cases none.symm.trans (h.loop_of_inbox inbox)
  | takeUp idle left inbox isOpen =>
    have loop := h.loop_of_inbox inbox
    refine .of_whole loop ?_
    rw [Chronicle.log_becomes, List.map_nil, List.append_nil]
    exact h.whole isOpen loop
  | decline idle taken inbox fails =>
    refine h.take idle taken inbox rfl rfl rfl ?_ rfl rfl
    simp [Chronicle.log_becomes, Session.current, idle]
  | enter idle taken inbox accepts =>
    refine h.take idle taken inbox rfl rfl rfl ?_ rfl rfl
    simp [Chronicle.log_becomes, Session.current]
  | leave answer running =>
    refine h.leave rfl rfl id ?_ rfl rfl
    simp [Chronicle.log_becomes, Session.current, running]

/-- **Calls keep the order in which they arrive.** -/
theorem of_reachable {d : Desk} (h : d.Reachable) : InOrder d.chronicle := by
  induction h with
  | opened => exact ⟨fun _ _ => rfl, List.prefix_rfl, fun _ => rfl⟩
  | small reachable step ih =>
    cases step with
    | own step =>
      refine ih.same step.service ?_ (Beside.own (.of_reachable reachable) step).loop ?_
      · cases step <;> rfl
      · cases step <;> first | exact id | simp
    | inbound step => exact ih.inbound step
    | unlink => exact ih.same ⟨rfl, rfl, rfl, rfl, rfl, rfl, rfl⟩ rfl rfl id
  | ambient _ step ih =>
    refine ih.same ?_ ?_ ?_ ?_
    · refine ⟨?_, ?_, ?_, ?_, ?_, ?_, ?_⟩
      all_goals simp only [step.session, step.log]
      cases step <;> rfl
    · rw [step.session]
    · cases step with
      | share timers keyed loop own => exact loop
      | wait => rfl
    · rw [step.session]
      exact id

end InOrder

/-! ## The replies -/

/-- The replies are those to the first of the dispatched calls, and while there is a transport, to
all of them. -/
structure Replied (c : Chronicle) : Prop where
  tidy : c.session.linked = true → ∀ x ∈ c.log.getLast?, ∀ y, Effect.reply? x.2 y = none
  first : c.log.replies.map Prod.snd <+: c.log.dispatches.map c.session.answer
  all : c.session.linked = true →
    c.log.replies.map Prod.snd = c.log.dispatches.map c.session.answer

namespace Replied

/-- What leaves replies and dispatched calls as they are. -/
theorem same (h : Replied c) (grows : Grows c d)
    (tidy : d.session.linked = true → ∀ x ∈ d.log.getLast?, ∀ y, Effect.reply? x.2 y = none)
    (replies : d.log.replies = c.log.replies) (dispatches : d.log.dispatches = c.log.dispatches)
    (linked : d.session.linked = true → c.session.linked = true) : Replied d := by
  have answer : d.session.answer = c.session.answer := by
    funext x
    rw [Session.answer, Session.answer, grows.codec, grows.registry]
  refine ⟨tidy, ?_, fun linked' => ?_⟩
  · rw [replies, dispatches, answer]
    exact h.first
  · rw [replies, dispatches, answer]
    exact h.all (linked linked')

/-- What answers no call of the peer, and dispatches none. -/
theorem keep {es : List Effect} (h : Replied c) (grows : Grows c d)
    (log : d.log = c.log ++ es.map fun e => (c.now, e)) (quiet : Effect.Unanswering es)
    (dispatches : d.log.dispatches = c.log.dispatches)
    (linked : d.session.linked = true → c.session.linked = true) : Replied d := by
  refine h.same grows (fun linked' x hx => ?_) ?_ dispatches linked
  · rw [log, List.getLast?_append] at hx
    cases last : (es.map fun e => (c.now, e)).getLast? with
    | none =>
      rw [last] at hx
      exact h.tidy (linked linked') x hx
    | some z =>
      rw [last] at hx
      cases hx
      obtain ⟨e, he, rfl⟩ := List.mem_map.1 (List.mem_of_getLast? last)
      exact quiet.dispatch e he
  · rw [log, Log.replies_append quiet]

/-- A call is dispatched, and gets its reply if there is a transport. -/
theorem dispatch {before : List Effect} (call : InboundCall) (result : Except DispatchFault Json)
    (h : Replied c) (grows : Grows c d) (quiet : Effect.Unanswering before)
    (log : d.log = (c.log ++ before.map fun e => (c.now, e)) ++
      (Effect.dispatched call result :: c.session.replies call result).map fun e => (c.now, e))
    (dispatches : d.log.dispatches = c.log.dispatches ++ [(call, result)])
    (linked : d.session.linked = c.session.linked) : Replied d := by
  have answer : d.session.answer = c.session.answer := by
    funext x
    rw [Session.answer, Session.answer, grows.codec, grows.registry]
  have replies : d.log.replies =
      c.log.replies ++
        if c.session.linked then [(c.now, c.session.answer (call, result))] else [] := by
    rw [log, Log.replies_dispatch, Log.replies_append quiet]
  refine ⟨fun up => ?_, ?_, fun up => ?_⟩
  · -- the reply comes after the dispatch
    rw [linked] at up
    rw [log, Session.replies, if_pos up]
    intro x hx y
    simp only [List.map_cons, List.map_nil, List.getLast?_append, List.getLast?_cons_cons,
      List.getLast?_singleton, Option.some_or, Option.mem_def, Option.some.injEq] at hx
    rw [← hx]
    rfl
  · rw [replies, dispatches, answer, List.map_append, List.map_append]
    cases up : c.session.linked with
    | false =>
      rw [if_neg Bool.false_ne_true, List.map_nil, List.append_nil]
      exact h.first.trans (List.prefix_append ..)
    | true =>
      rw [if_pos rfl, h.all up]
      exact List.prefix_rfl
  · rw [linked] at up
    rw [replies, dispatches, answer, if_pos up, List.map_append, List.map_append, h.all up]
    rfl

theorem inbound (h : Replied c) (step : Inbound c d) : Replied d := by
  have grows := Grows.inbound step
  cases step with
  | unmatched decodes answers other =>
    refine h.keep grows ((Chronicle.log_hears ..).trans (Chronicle.log_becomes ..)) ⟨?_, ?_⟩ ?_ id
    · simp [Effect.reply?]
    · simp [Effect.reply?]
    · simp [Chronicle.log_becomes]
  | refuse fails answerable linked =>
    -- the refusal follows no dispatch, since every dispatch has got its reply
    refine h.same grows ?_ ?_ ?_ id
    · intro _ x hx
      rw [Chronicle.log_hears, Chronicle.log_becomes] at hx
      simp only [List.map_cons, List.map_nil, List.getLast?_append, List.getLast?_singleton,
        Option.some_or, Option.mem_def, Option.some.injEq] at hx
      rw [← hx]
      intro y
      rfl
    · rw [Chronicle.log_hears, Chronicle.log_becomes, Log.replies, Log.pairs_append]
      · exact List.append_nil _
      · exact fun x hx y _ => h.tidy linked x hx y.2
    · simp [Chronicle.log_becomes]
  | buffer =>
    exact h.keep grows ((Chronicle.log_hears ..).trans (Chronicle.log_becomes ..)) .nil
      (by simp [Chronicle.log_becomes]) id
  | skip | takeUp =>
    exact h.keep grows (Chronicle.log_becomes ..) .nil (by simp [Chronicle.log_becomes]) id
  | ignore | drop => exact h.same grows h.tidy rfl rfl id
  | @decline call _ fault =>
    refine h.dispatch call (.error fault) grows .nil ?_ ?_ rfl <;> simp [Chronicle.log_becomes]
  | enter =>
    refine h.keep grows (Chronicle.log_becomes ..) ⟨?_, ?_⟩ ?_ id
    · simp [Effect.reply?]
    · simp [Effect.reply?]
    · simp [Chronicle.log_becomes]
  | @leave call handler answer =>
    have quiet : Effect.Unanswering [.returned call answer] :=
      ⟨by simp [Effect.reply?], by simp [Effect.reply?]⟩
    refine h.dispatch call (Registry.conclude handler.message answer) grows quiet ?_ ?_ rfl <;>
      simp [Chronicle.log_becomes]

/-- **While there is a transport, a dispatched call has its reply.** -/
theorem of_reachable {d : Desk} (h : d.Reachable) : Replied d.chronicle := by
  induction h with
  | opened =>
    refine ⟨fun _ x hx y => ?_, List.prefix_rfl, fun _ => rfl⟩
    cases hx
    rfl
  | small _ step ih =>
    cases step with
    | own step =>
      obtain ⟨es, log, quiet, -⟩ := step.effects
      refine ih.keep (.own step) log quiet step.service.dispatches ?_
      cases step <;> first | exact id | simp
    | inbound step => exact ih.inbound step
    | unlink =>
      refine ih.same (.small .unlink) (fun linked => ?_) rfl rfl fun linked => ?_
      all_goals cases linked
  | ambient _ step ih =>
    refine ih.same (.ambient step) ?_ ?_ ?_ ?_
    · rw [step.session, step.log]
      exact ih.tidy
    · rw [step.log]
    · rw [step.log]
    · rw [step.session]
      exact id

end Replied

/-- Every text is a request, a reply, or the refusal of a text of its own that was heard and is no
frame. -/
theorem Desk.Reachable.texts_perm {d : Desk} (h : d.Reachable) : ∃ refused : List String,
    refused.Sublist (d.chronicle.heard.filterMap d.chronicle.session.refusal?) ∧
      d.chronicle.log.texts.Perm (d.chronicle.log.requests.map (·.2.2) ++
        (d.chronicle.log.replies.map (·.2.2) ++ refused)) := by
  induction h with
  | opened => exact ⟨[], .slnil, .nil⟩
  | @small d e reachable step ih =>
    obtain ⟨refused, heard, perm⟩ := ih
    have grows := Grows.small step
    have same : e.chronicle.session.refusal? = d.chronicle.session.refusal? := by
      funext text
      simp only [Session.refusal?, Session.version, grows.codec, grows.registry]
    have later : refused.Sublist (e.chronicle.heard.filterMap e.chronicle.session.refusal?) :=
      same ▸ heard.trans (grows.heard.filterMap _).sublist
    cases step with
    | own step =>
      obtain ⟨es, log, quiet, -⟩ := step.effects
      obtain ⟨new, requests, texts, -⟩ := step.requests
      refine ⟨refused, later, ?_⟩
      rw [texts, requests, log, Log.replies_append quiet, List.map_append, List.append_assoc]
      refine (perm.append_right _).trans ?_
      rw [List.append_assoc]
      exact List.perm_append_comm.append_left _
    | inbound step =>
      obtain ⟨new, refused', replies, texts, more⟩ :=
        step.traffic (Replied.of_reachable reachable).tidy
      refine ⟨refused ++ refused', (heard.append_right _).trans more, ?_⟩
      rw [texts, step.requests, replies, List.map_append]
      refine (perm.append_right _).trans ?_
      -- the new reply goes before the old refusals
      rw [List.append_assoc, List.append_assoc, List.append_assoc]
      refine .append_left _ (.append_left _ ?_)
      rw [← List.append_assoc, ← List.append_assoc]
      exact .append_right _ List.perm_append_comm
    | unlink => exact ⟨refused, later, perm⟩
  | ambient _ step ih =>
    obtain ⟨refused, heard, perm⟩ := ih
    refine ⟨refused, ?_, ?_⟩
    · rw [step.session]
      exact heard.trans ((Grows.ambient step).heard.filterMap _).sublist
    · rw [step.log]
      exact perm

/-! ## The worker gets to the end -/

namespace Chronicle

/-- The worker takes up calls, and their handlers give these answers. -/
def work : List Answer → Chronicle → Chronicle
  | [], c => c
  | answer :: answers, c => work answers (c.serve.finish answer)

theorem steps_work : ∀ (answers : List Answer) (c : Chronicle), Steps c (c.work answers)
  | [], _ => .refl
  | answer :: answers, c =>
    (steps_serve c).trans (.head (.finish answer) (steps_work answers (c.serve.finish answer)))

/-- In each round, one more call gets its reply. -/
theorem round (answer : Answer) (isOpen : c.session.phase = .opened) :
    (c.serve.finish answer).session.unserved = c.session.unserved.tail ∧
      (c.serve.finish answer).session.phase = .opened ∧
      (c.serve.finish answer).session.linked = c.session.linked ∧
      (c.serve.finish answer).timers = c.timers ∧
      (c.serve.finish answer).arrivals = c.arrivals := by
  cases running : c.session.running with
  | some r =>
    rw [Chronicle.serve, finish, Turn.serve_idle (by simp [Turn.canServe, running]),
      Turn.finish_running running]
    simp [Session.unserved, Session.current, running, arrivals, isOpen]
  | none =>
    cases inbox : c.session.inbox with
    | nil =>
      have idle : c.serve.finish answer = c := by
        rw [Chronicle.serve, finish, Turn.serve_idle (by simp [Turn.canServe, inbox]),
          Turn.finish_idle running]
      have none : c.session.unserved = [] := by
        simp [Session.unserved, Session.current, running, inbox]
      rw [idle, none, List.tail_nil]
      exact ⟨rfl, isOpen, rfl, rfl, rfl⟩
    | cons call rest =>
      cases accepts : c.session.registry.accept call.action call.payload with
      | error fault =>
        simp [Chronicle.serve, finish, Turn.serve_declined running inbox isOpen accepts,
          Turn.finish_idle, Session.unserved, Session.current, running, inbox, arrivals, isOpen]
      | ok r =>
        rw [Chronicle.serve, finish, Turn.serve_entered running inbox isOpen accepts]
        simp [Turn.finish, Turn.reply_eq, Turn.emit, Session.unserved, Session.current, running,
          inbox, arrivals, isOpen]

/-- After enough rounds, no call waits for its reply. -/
theorem unserved_work : ∀ (answers : List Answer) (c : Chronicle), c.session.phase = .opened →
    (c.work answers).session.unserved = c.session.unserved.drop answers.length ∧
      (c.work answers).session.phase = .opened ∧
      (c.work answers).session.linked = c.session.linked ∧
      (c.work answers).timers = c.timers ∧ (c.work answers).arrivals = c.arrivals
  | [], c, isOpen => ⟨rfl, isOpen, rfl, rfl, rfl⟩
  | answer :: answers, c, isOpen => by
    obtain ⟨left, isOpen', linked', timers', arrivals'⟩ := round answer isOpen
    obtain ⟨unserved, phase, linked, timers, arrivals⟩ := unserved_work answers _ isOpen'
    refine ⟨?_, phase, linked.trans linked', timers.trans timers', arrivals.trans arrivals'⟩
    rw [work, unserved, left, List.drop_tail, List.length_cons]

/-- The replies are those to the first of the calls, whatever happens. -/
theorem Reachable.replies_arrivals (h : c.Reachable) :
    c.log.replies.map (·.2.1) <+: c.arrivals ∧
    (c.session.phase = .opened → c.session.linked = true → c.timers.hasLoop = true →
      c.log.replies.map (·.2.1) ++ c.session.unserved = c.arrivals) := by
  have replied := Replied.of_reachable h.desk
  have order := InOrder.of_reachable h.desk
  have calls : ∀ l : List (InboundCall × Except DispatchFault Json),
      (l.map c.session.answer).map Prod.fst = l.map Prod.fst := fun l => List.map_map
  have replies : c.log.replies.map (·.2.1) = (c.log.replies.map Prod.snd).map Prod.fst :=
    List.map_map.symm
  constructor
  · have first := replied.first.map Prod.fst
    rw [calls] at first
    rw [replies]
    exact (first.trans (List.prefix_append ..)).trans order.begun
  · intro isOpen linked loop
    rw [replies, replied.all linked, calls]
    exact order.whole isOpen loop

/-- **Calls are answered in their order, each of them once.** At most one handler is running, and the
replies are those to the first of the calls that have arrived, each with its call's id; no other text
is transmitted but the requests and the refusals of what is no frame. If the session is open and has
a transport and an event loop, then just those calls have no reply that are at the handler or in the
inbox, and whatever the handlers answer, these get their replies as well. -/
theorem Reachable.replies_in_order (h : c.Reachable) :
    (c.log.entries.map Prod.fst = c.log.returns.map Prod.fst ++ c.session.current ∧
      c.session.current.length ≤ 1) ∧
    c.log.replies.map (·.2.1) <+: c.arrivals ∧
    (∀ time call text, (time, call, text) ∈ c.log.replies → ∃ f : Frame,
      text = c.session.codec.encode f ∧ f.id = call.id ∧ f.kind ≠ .call) ∧
    (∃ refused : List String, refused.Sublist (c.heard.filterMap c.session.refusal?) ∧
      c.log.texts.Perm (c.log.requests.map (·.2.2) ++ (c.log.replies.map (·.2.2) ++ refused))) ∧
    (c.session.phase = .opened → c.session.linked = true → c.timers.hasLoop = true →
      c.log.replies.map (·.2.1) ++ c.session.unserved = c.arrivals ∧
      (c.log.entries.length = c.log.returns.length → c.turn.canServe = false →
        c.log.replies.map (·.2.1) = c.arrivals) ∧
      ∀ answers : List Answer, c.session.unserved.length ≤ answers.length →
        (c.work answers).log.replies.map (·.2.1) = c.arrivals) := by
  have served : Served c := Served.of_reachable h.desk
  obtain ⟨first, whole⟩ := h.replies_arrivals
  refine ⟨⟨served.returns, ?_⟩, first, ?_, h.desk.texts_perm, fun isOpen linked loop =>
    ⟨whole isOpen linked loop, ?_, ?_⟩⟩
  · rw [Session.current, List.length_map]
    exact Option.length_toList_le
  · intro time call text mem
    -- each reply is that to a dispatched call
    have replied := (Replied.of_reachable h.desk).first.subset (List.mem_map.2 ⟨_, mem, rfl⟩)
    obtain ⟨⟨call', result⟩, -, same⟩ := List.mem_map.1 replied
    cases same
    refine ⟨_, rfl, ?_⟩
    refine ⟨?_, fun call => ?_⟩
    · cases result <;> rfl
    · cases result <;> cases call
  · intro even idle
    have lengths := congrArg List.length served.returns
    rw [List.length_append, List.length_map, List.length_map] at lengths
    have current : c.session.current = [] := List.eq_nil_of_length_eq_zero (by omega)
    have running : c.session.running = none := by
      simpa [Session.current] using current
    have inbox : c.session.inbox = [] := by
      simpa [Turn.canServe, running] using idle
    rw [← whole isOpen linked loop, Session.unserved, current, inbox, List.append_nil,
      List.append_nil]
  · intro answers enough
    obtain ⟨unserved, isOpen', linked', timers, arrivals⟩ := unserved_work answers c isOpen
    have all := (h.steps (steps_work answers c)).replies_arrivals.2 isOpen' (linked'.trans linked)
      (timers ▸ loop)
    rwa [unserved, List.drop_eq_nil_of_le enough, List.append_nil, arrivals] at all

/-- A central system is asked about two cards under one id, and looks at the first of them. -/
def askedTwice : Chronicle :=
  ((Pair.central.takes (Pair.question "1" "A-1")).takes (Pair.question "1" "B-2")).serve

/-- The handler panics at the first card, and accepts the second: each call gets one reply. -/
theorem replies_in_order_twice :
    askedTwice.arrivals = [⟨"1", "Authorize", (Pair.card "A-1").encode⟩,
      ⟨"1", "Authorize", (Pair.card "B-2").encode⟩] ∧
    askedTwice.log.replies = [] ∧ askedTwice.session.unserved = askedTwice.arrivals ∧
    (askedTwice.work [.panic, .reply (Pair.verdict "Accepted")]).log.replies.map (·.2.1) =
      askedTwice.arrivals := by
  have read : ∀ id tag, Codec.json.decode (Codec.json.encode (Pair.question id tag)) =
      .ok (Pair.question id tag) := fun id tag => Frame.json_readBy _ (Pair.plain_question id tag)
  have opened : Pair.central.Reachable :=
    .opened _ _ _ _ _ _ _ _ ⟨by simp [Supervisor.create], List.nodup_nil⟩ rfl
  have reachable : askedTwice.Reachable :=
    ((opened.step (.takes (read "1" "A-1"))).step (.takes (read "1" "B-2"))).steps
      (steps_serve _)
  have replies : askedTwice.log.replies = [] := rfl
  have unserved : askedTwice.session.unserved = [⟨"1", "Authorize", (Pair.card "A-1").encode⟩,
      ⟨"1", "Authorize", (Pair.card "B-2").encode⟩] := rfl
  obtain ⟨-, -, -, -, whole⟩ := reachable.replies_in_order
  obtain ⟨all, -, done⟩ := whole rfl rfl rfl
  rw [replies, List.map_nil, List.nil_append] at all
  exact ⟨all.symm.trans unserved, replies, all, done [.panic, .reply (Pair.verdict "Accepted")]
    (by rw [unserved]; decide)⟩

end Chronicle

end ChargeLink

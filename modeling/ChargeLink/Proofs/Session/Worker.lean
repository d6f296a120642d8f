import ChargeLink.Proofs.Dispatch.Pipeline
import ChargeLink.Proofs.Session.Pair

/-!
# The worker of a session

The worker does with a call what `dispatch` does with it, only that it lets the
handler take its time: `serve` refuses the call or enters the handler, and
`finish` answers it.

* `Turn.finish_serve`: what the worker brings about for one call.
* `Registry.dispatch_pipeline`: calls are handled in stages, by `dispatch` and by the worker.
-/

namespace ChargeLink

variable {t : Turn} {call : InboundCall} {rest : List InboundCall}

/-- **The worker handles a call like `dispatch`**: it enters at most one handler, and transmits the
frame that answers the call. -/
theorem Turn.finish_serve (idle : t.session.running = none)
    (inbox : t.session.inbox = call :: rest) (isOpen : t.session.phase = .opened)
    (answer : Answer) : ∃ entered result,
      t.session.registry.Handles (fun _ _ => answer) call.id call.action call.payload entered
        (t.session.registry.reply call.id result) ∧
      (t.serve.finish answer).effects = t.effects ++
        (entered.map fun x => .entered call x.1 x.2) ++
        (entered.map fun _ => .returned call answer) ++
        .dispatched call result :: t.session.replies call result := by
  cases accepted : t.session.registry.accept call.action call.payload with
  | error fault =>
    refine ⟨[], .error fault, Registry.handles_of_accept accepted, ?_⟩
    have refused := serve_declined idle inbox isOpen accepted
    have stays : t.serve.session.running = none := by rw [refused]; exact idle
    rw [finish_idle stays, refused]
    simp
  | ok entrant =>
    obtain ⟨h, request⟩ := entrant
    have admits := Registry.accept_eq_ok_iff.1 accepted
    refine ⟨[(h, request)], Registry.conclude h.message answer, admits.handles, ?_⟩
    rw [serve_entered idle inbox isOpen accepted, finish_running rfl]
    simp [Session.replies]

/-- **Calls are handled in stages.** `dispatch` gives the one frame that they allow, under the id of
the call; so does the worker of a session, with the handlers it enters on the way. In every run of a
session, handlers have seen only requests that keep their rules, and results are confirmations that
do. -/
theorem Registry.dispatch_pipeline :
    (∀ (r : Registry) (n : ℕ) (id action : String) (payload : Json),
      (∃ entered, ∀ e f,
        r.Handles (fun h request => (h.react n request).answer) id action payload e f ↔
          e = entered ∧ f = r.dispatch n id action payload) ∧
      (r.dispatch n id action payload).id = id ∧ (r.dispatch n id action payload).kind ≠ .call) ∧
    (∀ (t : Turn) (call : InboundCall) (rest : List InboundCall) (answer : Answer),
      t.session.running = none → t.session.inbox = call :: rest → t.session.phase = .opened →
      ∃ entered result,
        t.session.registry.Handles (fun _ _ => answer) call.id call.action call.payload entered
          (t.session.registry.reply call.id result) ∧
        (t.serve.finish answer).effects = t.effects ++
          (entered.map fun x => .entered call x.1 x.2) ++
          (entered.map fun _ => .returned call answer) ++
          .dispatched call result :: t.session.replies call result) ∧
    ∀ c : Chronicle, c.Reachable →
      (∀ call h request, (call, h, request) ∈ c.log.entries →
        h ∈ c.session.registry.handlers ∧ h.action = call.action ∧
          h.message.request.decode call.payload = .ok request ∧
          h.message.request.validate request = none) ∧
      ∀ call result, (call, .ok result) ∈ c.log.dispatches →
        ∃ h request confirmation, (call, h, request) ∈ c.log.entries ∧
          (call, .reply confirmation) ∈ c.log.returns ∧
          h.message.confirmation.validate confirmation = none ∧
          h.message.confirmation.encode confirmation = .ok result := by
  refine ⟨fun r n id action payload => ⟨⟨r.entrants action payload, fun e f => ?_⟩, ?_⟩,
    fun t call rest answer idle inbox isOpen => Turn.finish_serve idle inbox isOpen answer,
    fun c reachable => ?_⟩
  · exact handles_dispatch_iff
  · exact r.reply_answers id _
  · have served := Served.of_reachable reachable.desk
    constructor
    · intro call h request entry
      obtain ⟨registered, serves, decodes, valid⟩ :=
        accept_eq_ok_iff.1 (served.accepted call h request entry)
      exact ⟨registered, serves, decodes, valid⟩
    · intro call result dispatched
      rcases served.outcome call _ dispatched with
        ⟨fault, -, other⟩ | ⟨h, request, answer, entry, returned, same⟩
      · cases other
      · obtain ⟨confirmation, rfl, keeps, encodes⟩ := conclude_eq_ok_iff.1 same.symm
        exact ⟨h, request, confirmation, entry, returned, keeps, encodes⟩

/-- The central system asks its handler about a card, and what it sends to both cards are
confirmations of the handler. -/
theorem Registry.dispatch_pipeline_deciding :
    (∃ entered result,
      Pair.central.session.registry.Handles (fun _ _ => .reply (Pair.verdict "Accepted")) "own#1"
        "Authorize" (Pair.card "A-1").encode entered
        (Pair.central.session.registry.reply "own#1" result) ∧
      ((Pair.central.takes (Pair.question "own#1" "A-1")).turn.serve.finish
        (.reply (Pair.verdict "Accepted"))).effects =
          Pair.central.turn.effects ++
          (entered.map fun x => .entered ⟨"own#1", "Authorize", (Pair.card "A-1").encode⟩ x.1 x.2) ++
          (entered.map fun _ => .returned ⟨"own#1", "Authorize", (Pair.card "A-1").encode⟩
            (.reply (Pair.verdict "Accepted"))) ++
          .dispatched ⟨"own#1", "Authorize", (Pair.card "A-1").encode⟩ result ::
            Pair.central.session.replies ⟨"own#1", "Authorize", (Pair.card "A-1").encode⟩ result) ∧
    ∀ call result, (call, .ok result) ∈ Pair.deciding.log.dispatches →
      ∃ h request confirmation, (call, h, request) ∈ Pair.deciding.log.entries ∧
        (call, .reply confirmation) ∈ Pair.deciding.log.returns ∧
        h.message.confirmation.validate confirmation = none ∧
        h.message.confirmation.encode confirmation = .ok result := by
  have reachable : Pair.deciding.Reachable := Pair.Reachable.late.hears.1.reachable
  exact ⟨dispatch_pipeline.2.1 (Pair.central.takes (Pair.question "own#1" "A-1")).turn
    ⟨"own#1", "Authorize", (Pair.card "A-1").encode⟩ [] (.reply (Pair.verdict "Accepted")) rfl rfl rfl,
    (dispatch_pipeline.2.2 Pair.deciding reachable).2⟩

end ChargeLink

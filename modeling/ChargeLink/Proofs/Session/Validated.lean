import ChargeLink.Proofs.Session.Matching
import ChargeLink.Proofs.Session.Pair
import ChargeLink.Proofs.Session.Replies
import ChargeLink.Proofs.Session.Stopped

/-!
# Both ends of an own call are checked

A request is checked when it is to be sent, and not again when its call is
transmitted, which may be long after. What waits in between is the payload that
has passed the check, so nothing else is transmitted. The answer is checked
before anybody gets it.

* `Desk.Reachable.requests_encode`: each own call that is transmitted is a fit request.
* `Chronicle.send_unfit`: a request that is not fit to be sent leaves no trace but its failure.
* `Station.Reachable.issue_unfit`: its caller is told so at once, and does not try again.
* `Chronicle.Reachable.validated`: so it is in every run, and so are the answers.
-/

namespace ChargeLink

variable {c : Chronicle} {m : Message} {v : Value} {fault : PayloadFault}

/-- The request breaks a rule, or keeps them all and cannot be encoded. -/
inductive Message.Unfit (m : Message) (v : Value) (fault : PayloadFault) : Prop
  | invalid (h : m.request.validate v = some fault)
  | unencodable (valid : m.request.validate v = none) (h : m.request.encode v = .error fault)

/-- Such a request is turned away. -/
theorem Message.Unfit.turnsAway {s : Session} (unfit : m.Unfit v fault) :
    s.TurnsAway m v (.badRequest fault) := by
  cases unfit with
  | invalid invalid => exact .invalid invalid
  | unencodable valid fails => exact .unencodable valid fails

/-! ## What is transmitted -/

/-- **Each own call that is transmitted is a fit request**, under the action of its message. -/
theorem Desk.Reachable.requests_encode {d : Desk} (h : d.Reachable) :
    ∀ x ∈ d.chronicle.log.requests, ∃ id m v p, (x.2.1, id) ∈ d.chronicle.log.calls ∧
      d.chronicle.asked[x.2.1]? = some (m, v) ∧ m.Encodes v p ∧
      x.2.2 = d.chronicle.session.codec.encode (.call id m.action p) := by
  induction h with
  | opened =>
    intro x hx
    cases hx
  | @small d e reachable step ih =>
    have grows := Grows.small step
    have before : ∀ x ∈ d.chronicle.log.requests, ∃ id m v p, (x.2.1, id) ∈ e.chronicle.log.calls ∧
        e.chronicle.asked[x.2.1]? = some (m, v) ∧ m.Encodes v p ∧
        x.2.2 = e.chronicle.session.codec.encode (.call id m.action p) := by
      intro x hx
      obtain ⟨id, m, v, p, called, asked, fit, text⟩ := ih x hx
      exact ⟨id, m, v, p, grows.calls.subset called, grows.asked_getElem? asked, fit,
        grows.codec ▸ text⟩
    cases step with
    | own step =>
      obtain ⟨new, requests, -, texts⟩ := step.requests
      rw [requests]
      refine List.forall_mem_append.2 ⟨before, fun x hx => ?_⟩
      -- the call in hand is that of the request under its ticket
      obtain ⟨q, hand, ticket, called, text⟩ := texts x hx
      obtain ⟨m, v, asked, fit, -, action⟩ := (Wired.of_reachable reachable).waiting q (.inr hand)
      rw [action] at text
      rw [ticket]
      exact ⟨_, m, v, _, called, grows.asked_getElem? asked, fit, grows.codec ▸ text⟩
    | inbound step =>
      rw [step.requests]
      exact before
    | unlink => exact before
  | ambient _ step ih =>
    have grows := Grows.ambient step
    rw [step.log]
    intro x hx
    obtain ⟨id, m, v, p, called, asked, fit, text⟩ := ih x hx
    exact ⟨id, m, v, p, called, grows.asked_getElem? asked, fit, grows.codec ▸ text⟩

namespace Chronicle

/-- All other texts are replies and refusals. -/
theorem Reachable.texts_answers (h : c.Reachable) : ∃ others : List String,
    c.log.texts.Perm (c.log.requests.map (·.2.2) ++ others) ∧
      ∀ text ∈ others, ∃ f : Frame, f.kind ≠ .call ∧ text = c.session.codec.encode f := by
  obtain ⟨refused, sublist, perm⟩ := h.desk.texts_perm
  refine ⟨_, perm, List.forall_mem_append.2 ⟨fun text mem => ?_, fun text mem => ?_⟩⟩
  · obtain ⟨x, hx, rfl⟩ := List.mem_map.1 mem
    have replied := (Replied.of_reachable h.desk).first.subset (List.mem_map.2 ⟨x, hx, rfl⟩)
    obtain ⟨⟨call, result⟩, -, same⟩ := List.mem_map.1 replied
    exact ⟨_, (c.session.registry.reply_answers call.id result).2, by rw [← same]; rfl⟩
  · obtain ⟨heard, -, refusal⟩ := List.mem_filterMap.1 (sublist.subset mem)
    unfold Session.refusal? at refusal
    split at refusal
    · cases refusal
    · obtain ⟨id, -, rfl⟩ := Option.map_eq_some_iff.1 refusal
      exact ⟨_, by simp [Frame.refusal, Frame.kind], rfl⟩

/-! ## What is not sent, and what is answered -/

/-- **A request that is not fit to be sent leaves no trace but its failure**, whatever the state of
the session is. -/
theorem send_unfit (c : Chronicle) (unfit : m.Unfit v fault) :
    (c.send m v).session = { c.session with issued := c.session.issued + 1 } ∧
      (c.send m v).timers = c.timers ∧
      (c.send m v).log =
        c.log ++ [(c.now, .settled c.session.issued (.error (.badRequest fault)))] := by
  rw [send, Turn.send_away unfit.turnsAway]
  refine ⟨rfl, rfl, ?_⟩
  simp [log]

/-- Whoever gets a confirmation gets one of the type that belongs to the request, and it keeps the
rules. -/
theorem Reachable.confirmations_valid (h : c.Reachable) {k time : ℕ}
    (settled : (k, time, .ok v) ∈ c.log.settlements) : ∃ m r, c.asked[k]? = some (m, r) ∧
      (∃ p, m.confirmation.decode p = .ok v) ∧ m.confirmation.validate v = none := by
  rcases (Wired.of_reachable h.desk).outcomes k time _ settled with
    ⟨f, failed, -⟩ | ⟨m, r, id, text, f, raw, asked, -, -, -, answers, outcome⟩
  · cases failed
  · have judged := Owner.judges ⟨k, m.confirmation⟩ answers
    rw [← outcome] at judged
    obtain ⟨p, -, decodes, valid⟩ := (judged.ok_iff v).1 rfl
    exact ⟨m, r, asked, ⟨p, decodes⟩, valid⟩

end Chronicle

/-! ## What callers get -/

namespace Station

variable {s : Station}

/-- What a caller gets keeps the rules of the confirmation to its own request. -/
theorem Reachable.confirmations_valid (h : s.Reachable) (alive : s.gone = false) {n : ℕ}
    (reported : .reported n (.ok v) ∈ s.notes) : ∃ a ∈ s.callers, a.number = n ∧
      (∃ p, a.message.confirmation.decode p = .ok v) ∧
      a.message.confirmation.validate v = none := by
  obtain ⟨d, follows⟩ := h.follows alive
  obtain ⟨a, ha, number, k, asked, time, settled⟩ := follows.told.reported n _ reported
  have log : (d.at s.timers s.now).log = d.log := List.append_nil _
  obtain ⟨m, r, asked', decodes, valid⟩ := follows.reachable.confirmations_valid (log ▸ settled)
  have same : (a.message, a.request) = (m, r) := Option.some.inj (asked.symm.trans asked')
  obtain ⟨rfl, -⟩ := Prod.mk.inj same
  exact ⟨a, ha, number, decodes, valid⟩

/-- Replacing the caller who came last. -/
theorem putCaller_last {c c' : Caller} (fresh : c.number ∉ s.callers.map Caller.number)
    (same : c'.number = c.number) :
    ({ s with callers := s.callers ++ [c] } : Station).putCaller c' =
      { s with callers := s.callers ++ [c'] } := by
  have others : s.callers.map (fun d => if d.number = c.number then c' else d) = s.callers := by
    refine (List.map_congr_left fun a ha => if_neg fun number => fresh ?_).trans (List.map_id _)
    exact List.mem_map.2 ⟨a, ha, number⟩
  simp [putCaller, others, same]

/-- A failure that will not pass is reported, whether the caller would try again or not. -/
theorem settled_lasting {c : Caller} {k : ℕ} {f : CallFailure}
    (found : (s.callers.find? fun a => a.state = .waiting k) = some c)
    (lasting : f.isTransient = false) : s.settled k (.error f) = s.report c (.error f) := by
  rw [settled, found]
  simp only [lasting, Bool.false_and, Backoff.next_giveUp, ite_self]

/-- **A caller whose request is not fit to be sent is told so at once**, and makes no further
attempt; nothing else happens. -/
theorem Reachable.issue_unfit (h : s.Reachable) (alive : s.gone = false) {number : ℕ} (retry : Bool)
    (fresh : number ∉ s.callers.map Caller.number) (unfit : m.Unfit v fault) :
    s.issue number m v retry = { s with
      session := { s.session with issued := s.session.issued + 1 }
      callers := s.callers ++ [⟨number, m, v, retry && m.transactional v, 1, .done, true⟩]
      notes := s.notes ++ [.reported number (.error (.badRequest fault))] } := by
  obtain ⟨d, follows⟩ := h.follows alive
  set c : Caller := ⟨number, m, v, retry && m.transactional v, 0, .done, true⟩ with hc
  set k := s.session.issued with hk
  -- nobody else waits for the new ticket
  have unused : ∀ a ∈ s.callers, a.state ≠ .waiting k := by
    intro a ha waits
    have asked : d.asked.length = d.session.issued :=
      (Accounts.of_reachable follows.reachable.desk).asked
    have lt := (follows.attended.waiting a ha k waits).1
    rw [asked, follows.session] at lt
    exact Nat.lt_irrefl _ lt
  set w : Station := { s with
    session := { s.session with issued := k + 1 }
    callers := s.callers ++ [c.next k] } with hw
  have found : (w.callers.find? fun a => a.state = .waiting k) = some (c.next k) := by
    have none : (s.callers.find? fun a => a.state = .waiting k) = none :=
      List.find?_eq_none.2 fun a ha => by simpa using unused a ha
    rw [hw, List.find?_append, none]
    simp [Caller.next]
  have attempted : s.issue number m v retry = w.settled k (.error (.badRequest fault)) := by
    have put : ({ s with callers := s.callers ++ [c] } : Station).putCaller (c.next k) =
        { s with callers := s.callers ++ [c.next k] } := putCaller_last fresh rfl
    show ({ s with callers := s.callers ++ [c] } : Station).attempt c = _
    rw [attempt_eq, put]
    show ({ s with callers := s.callers ++ [c.next k] } : Station).adopt (s.turn.send m v).2 = _
    rw [Turn.send_away unfit.turnsAway]
    rfl
  have told : w.putCaller { c.next k with state := .done } =
      { w with callers := s.callers ++ [{ c.next k with state := .done }] } :=
    putCaller_last (s := { s with session := w.session }) (c := c.next k) fresh rfl
  rw [attempted, settled_lasting found rfl, report, told]
  rfl

end Station

namespace Chronicle

/-- **Both ends of an own call are checked.** Every own call that is transmitted carries the payload
of the request that was asked for, which keeps the rules of its type, under the action of its
message; no other text is a call. A request that is not fit to be sent fails at once with what is
wrong with it, and leaves slot, queue, timers, phase, events and texts as they are. Every
confirmation that anybody gets keeps the rules of its type. So it is for stations, whose callers may
want their requests sent again: what a station transmits its session does, a caller whose request
is not fit is told so at once, and one who gets a confirmation gets one that keeps the rules. -/
theorem Reachable.validated (h : c.Reachable) {s : Station} (hs : s.Reachable)
    (alive : s.gone = false) :
    (∀ time k text, (time, k, text) ∈ c.log.requests → ∃ id m v p, (k, id) ∈ c.log.calls ∧
      c.asked[k]? = some (m, v) ∧ m.request.validate v = none ∧ m.request.encode v = .ok p ∧
      text = c.session.codec.encode (.call id m.action p)) ∧
    (∃ others : List String, c.log.texts.Perm (c.log.requests.map (·.2.2) ++ others) ∧
      ∀ text ∈ others, ∃ f : Frame, f.kind ≠ .call ∧ text = c.session.codec.encode f) ∧
    (∀ m v fault, m.Unfit v fault →
      (c.send m v).session = { c.session with issued := c.session.issued + 1 } ∧
      (c.send m v).timers = c.timers ∧
      (c.send m v).log =
        c.log ++ [(c.now, .settled c.session.issued (.error (.badRequest fault)))]) ∧
    (∀ k time v, (k, time, .ok v) ∈ c.log.settlements → ∃ m r, c.asked[k]? = some (m, r) ∧
      (∃ p, m.confirmation.decode p = .ok v) ∧ m.confirmation.validate v = none) ∧
    (∃ d : Chronicle, d.Reachable ∧ d.session = s.session ∧ d.log.texts = Station.texts s.notes) ∧
    (∀ number m v retry fault, number ∉ s.callers.map Caller.number → m.Unfit v fault →
      s.issue number m v retry = { s with
        session := { s.session with issued := s.session.issued + 1 }
        callers := s.callers ++ [⟨number, m, v, retry && m.transactional v, 1, .done, true⟩]
        notes := s.notes ++ [.reported number (.error (.badRequest fault))] }) ∧
    ∀ n v, .reported n (.ok v) ∈ s.notes → ∃ a ∈ s.callers, a.number = n ∧
      (∃ p, a.message.confirmation.decode p = .ok v) ∧
      a.message.confirmation.validate v = none := by
  refine ⟨fun time k text mem => ?_, h.texts_answers, fun m v fault => c.send_unfit,
    fun k time v => h.confirmations_valid, ?_,
    fun number m v retry fault fresh => hs.issue_unfit alive retry fresh,
    fun n v => hs.confirmations_valid alive⟩
  · obtain ⟨id, m, v, p, called, asked, ⟨valid, encoded⟩, same⟩ :=
      h.desk.requests_encode _ mem
    exact ⟨id, m, v, p, called, asked, valid, encoded, same⟩
  · obtain ⟨d, follows⟩ := hs.follows alive
    refine ⟨_, follows.reachable, follows.session, ?_⟩
    rw [show (d.at s.timers s.now).log = d.log from List.append_nil _]
    exact follows.texts.symm

end Chronicle

namespace Pair

/-- The charge point is told that the second card is blocked, and that it cannot ask for a card with
an overlong name, even while another call is outstanding. -/
theorem validated_late :
    (∃ time text, (time, 1, text) ∈ late.left.log.requests) ∧
    V16.authorize.confirmation.validate (verdict "Blocked") = none ∧
    ∃ fault, V16.authorize.Unfit (card "a name of more than twenty characters") fault ∧
      (late.left.send V16.authorize (card "a name of more than twenty characters")).log =
        late.left.log ++ [(10, .settled 2 (.error (.badRequest fault)))] ∧
      (Station.pausing.issue 2 V16.authorize (card "a name of more than twenty characters")
        true).notes = Station.pausing.notes ++ [.reported 2 (.error (.badRequest fault))] := by
  obtain ⟨-, ⟨reachable, -⟩, -⟩ := Reachable.late.hears
  obtain ⟨-, -, unfit, confirmed, -, told, -⟩ :=
    reachable.validated Station.Reachable.pausing (by decide +kernel)
  have long : (V16.authorize.request.validate
      (card "a name of more than twenty characters")).isSome = true := by decide
  obtain ⟨fault, long⟩ := Option.isSome_iff_exists.1 long
  refine ⟨⟨10, _, List.mem_cons_of_mem _ List.mem_cons_self⟩, ?_, fault, .invalid long,
    (unfit _ _ fault (.invalid long)).2.2, ?_⟩
  · obtain ⟨m, r, asked, -, valid⟩ := confirmed 1 10 (verdict "Blocked")
      (List.mem_cons_of_mem _ List.mem_cons_self)
    cases asked
    exact valid
  · rw [told 2 _ _ true fault (by decide +kernel) (.invalid long)]

end Pair

end ChargeLink

import ChargeLink.Proofs.Frame.RoundTrip
import ChargeLink.Proofs.Schema.Fits
import ChargeLink.Proofs.Schema.Spellings
import ChargeLink.Proofs.Session.Matching
import ChargeLink.Proofs.Session.Replies
import ChargeLink.Proofs.Session.Unmatched
import ChargeLink.Proofs.Session.Validated

/-!
# Two sessions that understand each other

Two sessions that talk JSON to each other send frames only, so neither refuses
what the other says as malformed. Answers are given to calls alone, one to each
call at most. So an answer finds its call outstanding, unless the call has been
given up.

* `Chronicle.Justified.plain`: what a session transmits can be read, whoever hears it.
* `Chronicle.Reachable.receive_answer`: no answer is given to an answer.
* `Pair.Joined.civil`: so it is in every run of two sessions, at both ends.
-/

namespace ChargeLink

open Json (Finite)

variable {D : Binary64 → Prop} {w : Vocabulary} {c d e : Chronicle}

namespace Chronicle

/-- What the session was asked to send and what its handlers reply fits into a frame, which a reader
takes up to a limit of nesting only, and no record that its handlers take has two members of one
name. -/
structure Writable (c : Chronicle) : Prop where
  asked : ∀ m v, (m, v) ∈ c.asked → v.Fits Frame.payloadDepth
  replied : ∀ call v, (call, .reply v) ∈ c.log.returns → v.Fits Frame.payloadDepth
  served : ∀ h ∈ c.session.registry.handlers, h.message.request.shape.distinct = true

theorem Writable.mono (h : d.Writable) (grows : Grows c d) : c.Writable where
  asked m v mem := h.asked m v (grows.asked.subset mem)
  replied call v mem := h.replied call v (grows.returns.subset mem)
  served := grows.registry ▸ h.served

/-- The types of a vocabulary do not nest too deep, so a session that keeps to it is writable. -/
theorem Apt.writable (h : c.Apt D w) (reachable : c.Reachable)
    (speaks : c.session.registry.Speaks w) : c.Writable where
  asked m v mem := by
    obtain ⟨known, typed⟩ := h.asked m v mem
    exact (Shape.Typed.fits _ _ typed).mono (w.readable m known).1.2
  replied call v mem := by
    have served := Served.of_reachable reachable.desk
    have entered : call ∈ c.log.entries.map Prod.fst := by
      rw [served.returns]
      exact List.mem_append_left _ (List.mem_map.2 ⟨_, mem, rfl⟩)
    obtain ⟨⟨call, handler, request⟩, entry, rfl⟩ := List.mem_map.1 entered
    obtain ⟨registered, serves, -⟩ :=
      Registry.accept_eq_ok_iff.1 (served.accepted call handler request entry)
    have known := speaks handler registered
    exact (Shape.Typed.fits _ _ (h.replied call v mem _ known serves)).mono
      (w.readable _ known).2.2
  served handler registered := (w.readable _ (speaks handler registered)).1.1

end Chronicle

/-! ## What a session transmits -/

/-- The details of a refusal are plain. -/
theorem Registry.details_plain {r : Registry} {action : String} {payload : Json}
    {fault : DispatchFault} (distinct : ∀ h ∈ r.handlers, h.message.request.shape.distinct = true)
    (numbers : payload.Numbers Finite) (refused : r.accept action payload = .error fault) :
    fault.details.Plain Finite Frame.payloadDepth := by
  unfold accept at refused
  split at refused
  · cases refused
    exact Json.Plain.empty
  · rename_i h found
    split at refused
    · rename_i bad _
      cases refused
      refine PayloadFault.details_plain (n := 125) fun v hv => ?_
      rw [bad.value_report] at hv
      cases hv
    · rename_i v decodes
      split at refused
      · rename_i broken
        cases refused
        have typed := PayloadType.typed_of_decode (distinct h (lookup_eq_ok_iff.1 found).1) numbers
          decodes
        exact (PayloadType.details_plain (Shape.Typed.fits _ _ typed) broken).mono (by decide)
      · cases refused

namespace Chronicle

/-- The numbers of a call that is heard are finite. -/
theorem numbers_of_arrival (json : c.session.codec = .json) {call : InboundCall}
    (arrived : call ∈ c.arrivals) : call.payload.Numbers Finite := by
  obtain ⟨text, -, called⟩ := List.mem_filterMap.1 arrived
  rw [json] at called
  unfold Codec.call? at called
  split at called
  · rename_i decodes
    cases called
    exact (Frame.ofText_sound decodes).1.numbers
  · cases called

/-- **The payload of a frame that is transmitted is plain**, whoever the peer is. -/
theorem Justified.plain {f : Frame} (h : c.Justified f) (reachable : c.Reachable)
    (json : c.session.codec = .json) (writable : c.Writable) :
    f.payload.Plain Finite Frame.payloadDepth := by
  have served : Served c := Served.of_reachable reachable.desk
  cases h with
  | @call k id m v p called asked fit =>
    rw [PayloadType.encode_eq fit.2]
    exact Value.Fits.plain _ _ (writable.asked m v (List.mem_of_getElem? asked))
  | @reply call result mem =>
    rcases served.outcome call result mem with ⟨fault, refused, rfl⟩ |
      ⟨h, request, answer, -, returned, rfl⟩
    · refine Registry.details_plain writable.served (numbers_of_arrival json ?_) refused
      exact served.arrivals.subset (List.mem_append_left _ (List.mem_map.2 ⟨_, mem, rfl⟩))
    · cases concluded : Registry.conclude h.message answer with
      | error fault =>
        show fault.details.Plain Finite Frame.payloadDepth
        rw [(Registry.conclude_error concluded).details]
        exact Json.Plain.empty
      | ok p =>
        obtain ⟨v, rfl, rfl, -⟩ := Registry.conclude_ok concluded
        exact Value.Fits.plain _ _ (writable.replied call v returned)
  | refusal => exact Json.Plain.empty

end Chronicle

/-- A request is the text of a call. -/
theorem Desk.Reachable.requests_justified {d : Desk} (h : d.Reachable) :
    ∀ x ∈ d.chronicle.log.requests, ∃ f, d.chronicle.Justified f ∧ f.kind = .call ∧
      x.2.2 = d.chronicle.session.codec.encode f := by
  intro x hx
  obtain ⟨id, m, v, p, called, asked, fit, text⟩ := h.requests_encode x hx
  exact ⟨_, .call called asked fit, rfl, text⟩

/-! ## What a session hears -/

theorem Frame.callId?_received (f : Frame) : f.received.callId? = f.callId? := by
  cases f <;> rfl

theorem Codec.call?_eq {codec : Codec} {text : String} {f : Frame}
    (decodes : codec.decode text = .ok f) :
    (codec.call? text).map InboundCall.id = f.callId? := by
  rw [Codec.call?, decodes]
  cases f <;> rfl

/-- An answer bears the id of its call. -/
theorem Codec.answerId?_eq {codec : Codec} {text : String} {f : Frame}
    (decodes : codec.decode text = .ok f.received) :
    codec.answerId? text = if f.kind = .call then none else some f.id := by
  rw [Codec.answerId?, decodes]
  cases f <;> rfl

/-- Two sessions that talk JSON, each of which hears what the other transmits. -/
structure Talks (c d : Chronicle) : Prop where
  mine : c.Reachable
  peer : d.Reachable
  json : c.session.codec = .json ∧ d.session.codec = .json
  writable : c.Writable ∧ d.Writable
  hears : c.heard <+: d.log.texts
  heard : d.heard <+: c.log.texts

namespace Talks

theorem symm (h : Talks c d) : Talks d c :=
  ⟨h.peer, h.mine, h.json.symm, h.writable.symm, h.heard, h.hears⟩

/-- What the peer transmits is read as the frame that it was written from. -/
theorem decode_encode (h : Talks c d) {f : Frame} (justified : d.Justified f) :
    c.session.codec.decode (d.session.codec.encode f) = .ok f.received := by
  rw [h.json.1, h.json.2]
  exact Frame.ofText_received (justified.plain h.peer h.json.2 h.writable.2)

theorem read (h : Talks c d) : ∀ text ∈ d.log.texts, ∃ f, c.session.codec.decode text = .ok f := by
  obtain ⟨fs, texts, -, justified⟩ := (Wired.of_reachable h.peer.desk).frames
  intro text sent
  rw [show d.log.texts = _ from texts] at sent
  obtain ⟨f, hf, rfl⟩ := List.mem_map.1 sent
  exact ⟨f.received, h.decode_encode (justified f hf)⟩

/-- Nothing that is heard is refused as malformed. -/
theorem refusals (h : Talks c d) : c.heard.filterMap c.session.refusal? = [] := by
  refine List.filterMap_eq_nil_iff.2 fun text heard => ?_
  obtain ⟨f, decodes⟩ := h.read text (h.hears.subset heard)
  rw [Session.refusal?, decodes]

/-- So all texts are requests and replies. -/
theorem texts_perm (h : Talks c d) :
    c.log.texts.Perm (c.log.requests.map (·.2.2) ++ c.log.replies.map (·.2.2)) := by
  obtain ⟨refused, malformed, perm⟩ := h.mine.desk.texts_perm
  have none : c.heard.filterMap c.session.refusal? = [] := h.refusals
  rw [show refused = [] from List.sublist_nil.1 (none ▸ malformed), List.append_nil] at perm
  exact perm

/-- The ids of the calls that are heard are those under which the peer transmitted its first
calls. -/
theorem arrivals_prefix (h : Talks c d) :
    c.arrivals.map InboundCall.id <+: d.log.calls.map Prod.snd := by
  refine (Wired.of_reachable h.peer.desk).arrivals_of_heard h.hears fun f justified => ?_
  rw [Codec.call?_eq (h.decode_encode justified), Frame.callId?_received]

/-- A justified frame is read as an answer unless it is a call. -/
theorem answerId?_encode (h : Talks c d) {f : Frame} (justified : d.Justified f) :
    c.session.codec.answerId? (d.session.codec.encode f) =
      if f.kind = .call then none else some f.id := by
  exact Codec.answerId?_eq (h.decode_encode justified)

/-- The answers that the peer transmits are its replies. -/
theorem answers_perm (h : Talks c d) :
    (d.log.texts.filterMap c.session.codec.answerId?).Perm (d.log.replies.map (·.2.1.id)) := by
  have requests : (d.log.requests.map (·.2.2)).filterMap c.session.codec.answerId? = [] := by
    refine List.filterMap_eq_nil_iff.2 fun text mem => ?_
    obtain ⟨x, hx, rfl⟩ := List.mem_map.1 mem
    obtain ⟨f, justified, call, same⟩ := h.peer.desk.requests_justified x hx
    rw [same, h.answerId?_encode justified, if_pos call]
  have replies : (d.log.replies.map (·.2.2)).filterMap c.session.codec.answerId? =
      d.log.replies.map (·.2.1.id) := by
    rw [List.filterMap_map, ← List.filterMap_eq_map]
    refine List.filterMap_congr fun x hx => ?_
    -- each reply is that to a dispatched call
    have dispatched := (Replied.of_reachable h.peer.desk).first.subset (List.mem_map.2 ⟨x, hx, rfl⟩)
    obtain ⟨⟨call, result⟩, mem, same⟩ := List.mem_map.1 dispatched
    obtain ⟨id, answer⟩ := d.session.registry.reply_answers call.id result
    simp only [Function.comp, ← same, Session.answer]
    rw [h.answerId?_encode (.reply mem), if_neg answer, id]
  have perm := h.symm.texts_perm.filterMap c.session.codec.answerId?
  rwa [List.filterMap_append, requests, replies, List.nil_append] at perm

/-- The answers that are heard are those to calls of the session's own, one to each. -/
theorem answerIds (h : Talks c d) :
    c.answerIds.Nodup ∧ ∀ id ∈ c.answerIds, id ∈ c.log.calls.map Prod.snd := by
  have replies : (d.log.replies.map (·.2.1.id)) <+: c.log.calls.map Prod.snd := by
    have first := (h.peer.replies_arrivals.1.map InboundCall.id).trans h.symm.arrivals_prefix
    rwa [List.map_map] at first
  have answers := h.hears.filterMap c.session.codec.answerId?
  have ids := (Wired.of_reachable h.mine.desk).ids_nodup
  constructor
  · exact answers.sublist.nodup (h.answers_perm.nodup_iff.2 (replies.sublist.nodup ids))
  · exact fun id heard => replies.subset (h.answers_perm.subset (answers.subset heard))

end Talks

/-! ## What an answer causes -/

/-- Handing on the slot transmits calls. -/
theorem Session.texts_handOver (s : Session) (time : ℕ) : ∃ fs : List Frame,
    Log.texts (s.handOver.map fun e => (time, e)) = fs.map s.codec.encode ∧
      ∀ f ∈ fs, f.kind = .call := by
  by_cases isOpen : s.phase = .opened
  · cases linked : s.linked with
    | true =>
      rw [handOver_linked isOpen linked]
      cases queue : s.queue with
      | nil => exact ⟨[], by simp, by simp⟩
      | cons q rest =>
        refine ⟨[.call s.nextId q.action q.payload], by simp, ?_⟩
        intro f hf
        rw [List.mem_singleton.1 hf]
        rfl
    | false =>
      rw [handOver_unlinked isOpen linked]
      refine ⟨[], ?_, by simp⟩
      induction s.queue with
      | nil => rfl
      | cons q rest ih => simpa using ih
  · exact ⟨[], by simp [handOver_ended isOpen], by simp⟩

/-- That a call ends and the slot is handed on answers no call of the peer. -/
theorem Session.handOver_unanswering (s : Session) (k : ℕ) (o : Except CallFailure Value) :
    Effect.Unanswering (.settled k o :: s.handOver) := by
  constructor
  · intro x hx y
    rcases List.mem_cons.1 hx with rfl | hx
    · rfl
    by_cases isOpen : s.phase = .opened
    · cases linked : s.linked with
      | true =>
        rw [handOver_linked isOpen linked] at hx
        cases queue : s.queue with
        | nil => simp [queue] at hx
        | cons q rest =>
          simp only [queue, List.head?_cons, Option.map_some, Option.getD_some, List.mem_cons,
            List.not_mem_nil, or_false] at hx
          rcases hx with rfl | rfl | rfl <;> rfl
      | false =>
        rw [handOver_unlinked isOpen linked] at hx
        obtain ⟨q, -, hx⟩ := List.mem_flatMap.1 hx
        simp only [List.mem_cons, List.not_mem_nil, or_false] at hx
        rcases hx with rfl | rfl <;> rfl
    · simp [handOver_ended isOpen] at hx
  · intro y hy x
    cases hy
    cases x <;> rfl

/-- **An answer causes no answer.** Nothing but calls is transmitted for it, and no call of the
peer gets a reply. -/
theorem Chronicle.Reachable.receive_answer (h : c.Reachable) {text : String} {f : Frame}
    (decodes : c.session.codec.decode text = .ok f) (answer : f.kind ≠ .call) :
    (c.receive text).log.replies = c.log.replies ∧ ∃ fs : List Frame,
      (c.receive text).log.texts = c.log.texts ++ fs.map c.session.codec.encode ∧
        ∀ g ∈ fs, g.kind = .call := by
  obtain ⟨raw, answers⟩ := Frame.exists_answer answer
  by_cases outstanding : c.session.slot.outstandingId = some f.id
  · obtain ⟨call, slot, same⟩ := PendingTable.exists_of_outstandingId outstanding
    have log := (h.ends decodes answers slot same).log
    obtain ⟨fs, texts, calls⟩ := c.session.texts_handOver c.now
    refine ⟨?_, fs, ?_, calls⟩
    · rw [log, Log.replies_append (c.session.handOver_unanswering ..)]
    · simp only [log, Log.view_append, ← texts]
      simp
  · rw [receive_of_ne decodes answers outstanding, log_hears, log_becomes]
    refine ⟨Log.replies_append ⟨?_, ?_⟩ _, [], by simp, by simp⟩
    · simp [Effect.reply?]
    · simp [Effect.reply?]

/-! ## Both ends -/

/-- If an answer is published as unmatched, its call was given up before. -/
theorem Talks.belated (h : Talks d e) (reachable : c.Reachable) (step : c.Step d)
    (belated : c.log.Belated) : d.log.Belated := by
  have grows := step.grows
  rcases step.puzzled with same | ⟨text, id, puzzled⟩
  · obtain ⟨later, log⟩ := grows.log
    rw [← log] at same ⊢
    refine belated.append ?_
    simpa only [Log.unmatched, Log.view_append, List.append_right_eq_self] using same
  · obtain ⟨nodup, own⟩ := h.answerIds
    rw [puzzled.answerIds grows.codec] at nodup own
    -- no call is transmitted when the answer is heard
    have calls : d.log.calls = c.log.calls := by simp [puzzled.log]
    rw [puzzled.log]
    refine belated.concat rfl (puzzled.gaveUp reachable ?_ ?_)
    · rw [← calls]
      exact own id (List.mem_append_right _ List.mem_cons_self)
    · intro before
      exact List.disjoint_of_nodup_append nodup before List.mem_cons_self

namespace Pair

/-- The runs of two sessions that talk JSON and start in silence. At each step one of them does
anything a session may do, and hears the other's texts in order and as late as may be. -/
inductive Joined : Pair → Prop
  | opened {p} (left : p.left.Reachable) (right : p.right.Reachable)
      (heard : p.left.heard = [] ∧ p.right.heard = [])
      (json : p.left.session.codec = .json ∧ p.right.session.codec = .json) : Joined p
  | left {p d} : Joined p → p.left.Step d → d.heard <+: p.right.log.texts → Joined ⟨d, p.right⟩
  | right {p d} : Joined p → p.right.Step d → d.heard <+: p.left.log.texts → Joined ⟨p.left, d⟩

variable {p : Pair}

namespace Joined

theorem talks (h : p.Joined) (left : p.left.Writable) (right : p.right.Writable) :
    Talks p.left p.right := by
  induction h with
  | @opened p one other heard json =>
    refine ⟨one, other, json, ⟨left, right⟩, ?_, ?_⟩
    · rw [heard.1]
      exact List.nil_prefix
    · rw [heard.2]
      exact List.nil_prefix
  | @left p d _ step fifo ih =>
    have grows := step.grows
    have h := ih (left.mono grows) right
    exact ⟨h.mine.step step, h.peer, ⟨grows.codec.trans h.json.1, h.json.2⟩, ⟨left, right⟩, fifo,
      h.heard.trans grows.texts⟩
  | @right p d _ step fifo ih =>
    have grows := step.grows
    have h := ih left (right.mono grows)
    exact ⟨h.mine, h.peer.step step, ⟨h.json.1, grows.codec.trans h.json.2⟩, ⟨left, right⟩,
      h.hears.trans grows.texts, fifo⟩

theorem belated (h : p.Joined) (left : p.left.Writable) (right : p.right.Writable) :
    p.left.log.Belated ∧ p.right.log.Belated := by
  induction h with
  | @opened p one other heard json =>
    exact ⟨one.belated_of_silent heard.1, other.belated_of_silent heard.2⟩
  | @left p d h step fifo ih =>
    have before := left.mono step.grows
    obtain ⟨belated, same⟩ := ih before right
    have now := (h.left step fifo).talks left right
    exact ⟨now.belated (h.talks before right).mine step belated, same⟩
  | @right p d h step fifo ih =>
    have before := right.mono step.grows
    obtain ⟨same, belated⟩ := ih left before
    have now := (h.right step fifo).talks left right
    exact ⟨same, now.symm.belated (h.talks left before).peer step belated⟩

end Joined

/-- Two sessions of a vocabulary are joined if both talk JSON. -/
theorem Reachable.joined (h : p.Reachable D w)
    (json : p.left.session.codec = .json ∧ p.right.session.codec = .json) : p.Joined := by
  induction h with
  | opened left right _ heard => exact .opened left right heard json
  | left _ step fifo _ ih => exact .left (ih ⟨step.grows.codec ▸ json.1, json.2⟩) step fifo
  | right _ step fifo _ ih => exact .right (ih ⟨json.1, step.grows.codec ▸ json.2⟩) step fifo

/-- Whatever they say fits, since the types of the vocabulary do. -/
theorem Reachable.writable (h : p.Reachable D w) : p.left.Writable ∧ p.right.Writable := by
  obtain ⟨left, right, matched⟩ := h.hears
  exact ⟨right.apt.writable right.reachable matched.left,
    left.apt.writable left.reachable matched.right⟩

end Pair

/-- A session that talks to its peer as it should. -/
structure Civil (c d : Chronicle) : Prop where
  /-- The peer takes whatever is transmitted for a frame. -/
  accepted : ∀ text ∈ c.log.texts, ∃ f, d.session.codec.decode text = .ok f
  /-- Nothing but calls and replies to calls is transmitted; no text is refused as malformed. -/
  texts : c.heard.filterMap c.session.refusal? = [] ∧
    c.log.texts.Perm (c.log.requests.map (·.2.2) ++ c.log.replies.map (·.2.2))
  /-- An answer that is heard causes no answer. -/
  quiet : ∀ text f, c.session.codec.decode text = .ok f → f.kind ≠ .call →
    (c.receive text).log.replies = c.log.replies ∧ ∃ fs : List Frame,
      (c.receive text).log.texts = c.log.texts ++ fs.map c.session.codec.encode ∧
        ∀ g ∈ fs, g.kind = .call
  /-- There are no more answers for the peer to read than calls were received. -/
  answers : (c.log.texts.filterMap d.session.codec.answerId?).length ≤ c.arrivals.length
  /-- What was published as unmatched is the id of a call that had been given up before. -/
  belated : c.log.Belated
  once : c.log.unmatched.Nodup
  /-- Without a call that is given up, nothing is published as unmatched. -/
  matched : (∀ k u f, (k, u, .error f) ∈ c.log.settlements → ¬f.GivesUp) → c.log.unmatched = []

theorem Civil.of_talks (h : Talks c d) (belated : c.log.Belated) : Civil c d where
  accepted := h.symm.read
  texts := ⟨h.refusals, h.texts_perm⟩
  quiet _ _ decodes answer := h.mine.receive_answer decodes answer
  answers := by
    have replies := h.mine.replies_arrivals.1.length_le
    rw [List.length_map] at replies
    rwa [h.symm.answers_perm.length_eq, List.length_map]
  belated := belated
  once := h.mine.unmatched_sublist.nodup h.answerIds.1
  matched := by
    intro never
    refine List.eq_nil_iff_forall_not_mem.2 fun id mem => ?_
    obtain ⟨k, u, f, -, settled, givesUp⟩ := belated.mem mem
    exact never k u f settled givesUp

namespace Pair

variable {p : Pair}

/-- **Two sessions never quarrel.** Whatever they do and whenever what they say arrives, each takes
all that the other transmits for frames and refuses none of it, answers are given to calls alone, and
an answer is published as unmatched only if its call had been given up, once for each call. -/
theorem Joined.civil (h : p.Joined) (left : p.left.Writable) (right : p.right.Writable) :
    Civil p.left p.right ∧ Civil p.right p.left := by
  have talks := h.talks left right
  obtain ⟨one, other⟩ := h.belated left right
  exact ⟨.of_talks talks one, .of_talks talks.symm other⟩

/-- The charge point has given up its first call when the answer comes. -/
theorem civil_late : late.left.log.unmatched = ["own#1"] ∧
    Civil late.left late.right ∧ Civil late.right late.left := by
  obtain ⟨left, right⟩ := Reachable.late.writable
  exact ⟨rfl, Joined.civil (Reachable.late.joined ⟨rfl, rfl⟩) left right⟩

end Pair

end ChargeLink

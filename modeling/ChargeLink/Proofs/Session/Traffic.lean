import ChargeLink.Proofs.Session.Growth

/-!
# Requests and replies in the log

Of the texts that a session hands to the transport, a request is one that a call
is transmitted by, and a reply is one that answers a call of the peer. In the
log, a request comes right before its call is recorded, and a reply right after
its call is dispatched; so both are found by looking at two effects in a row.

* `Log.pairs_append`: what two logs say one after the other.
* `Tidy.of_reachable`: while there is a transport, no dispatched call is without its reply.
-/

namespace ChargeLink

/-- A text and the call that is transmitted by it. -/
def Effect.request? : Effect → Effect → Option (ℕ × String)
  | .sent text, .called k _ => some (k, text)
  | _, _ => none

/-- A call of the peer and the text that answers it. -/
def Effect.reply? : Effect → Effect → Option (InboundCall × String)
  | .dispatched call _, .sent text => some (call, text)
  | _, _ => none

namespace Log

variable {α : Type} {f : Effect → Effect → Option α}

/-- What each two effects in a row come to, with the time of the second. -/
def pairs (f : Effect → Effect → Option α) : Log → List (ℕ × α)
  | x :: y :: l => ((f x.2 y.2).map fun a => (y.1, a)).toList ++ pairs f (y :: l)
  | _ => []

/-- The own calls that were transmitted: when, for which send, and by which text. -/
def requests (l : Log) : List (ℕ × ℕ × String) :=
  l.pairs Effect.request?

/-- The calls of the peer that were answered: when, which, and by which text. -/
def replies (l : Log) : List (ℕ × InboundCall × String) :=
  l.pairs Effect.reply?

/-- Between two logs nothing is found if no effect that ends the one goes with one that starts the
other. -/
theorem pairs_append {l l' : Log} (apart : ∀ x ∈ l.getLast?, ∀ y ∈ l'.head?, f x.2 y.2 = none) :
    pairs f (l ++ l') = pairs f l ++ pairs f l' := by
  induction l with
  | nil => rfl
  | cons x l ih =>
    cases l with
    | nil =>
      cases l' with
      | nil => rfl
      | cons y l' =>
        have none := apart x rfl y rfl
        simp [pairs, none]
    | cons z l =>
      have rest := ih fun x hx => apart x (by rwa [List.getLast?_cons_cons])
      simp only [List.cons_append] at rest
      simp [pairs, rest]

/-- In a log in which no two effects go together, nothing is found. -/
theorem pairs_eq_nil {l : Log} (none : ∀ x ∈ l, ∀ y ∈ l, f x.2 y.2 = none) : pairs f l = [] := by
  induction l with
  | nil => rfl
  | cons x l ih =>
    cases l with
    | nil => rfl
    | cons y l =>
      have rest := ih fun x hx z hz =>
        none x (List.mem_cons_of_mem _ hx) z (List.mem_cons_of_mem _ hz)
      have first := none x List.mem_cons_self y (List.mem_cons_of_mem _ List.mem_cons_self)
      rw [pairs, first, rest]
      rfl

end Log

/-- Effects that answer no call of the peer: none is a dispatch, and the first is no text, so that
it answers no dispatch before them either. -/
structure Effect.Unanswering (es : List Effect) : Prop where
  dispatch : ∀ x ∈ es, ∀ y, Effect.reply? x y = none
  first : ∀ y ∈ es.head?, ∀ x, Effect.reply? x y = none

theorem Effect.Unanswering.nil : Effect.Unanswering [] :=
  ⟨by simp, by simp⟩

/-- What answers no call leaves the replies as they are. -/
theorem Log.replies_append {l : Log} {es : List Effect} (h : Effect.Unanswering es) (time : ℕ) :
    (l ++ es.map fun e => (time, e)).replies = l.replies := by
  have none : Log.pairs Effect.reply? (es.map fun e => (time, e)) = [] := by
    refine Log.pairs_eq_nil fun x hx y _ => ?_
    obtain ⟨e, he, rfl⟩ := List.mem_map.1 hx
    exact h.dispatch e he y.2
  rw [Log.replies, Log.pairs_append, none, List.append_nil, Log.replies]
  intro x _ y hy
  rw [List.head?_map] at hy
  obtain ⟨e, he, rfl⟩ := Option.map_eq_some_iff.1 hy
  exact h.first e he x.2

/-- The call of a dispatch with the text of its reply. -/
def Session.answer (s : Session) (x : InboundCall × Except DispatchFault Json) :
    InboundCall × String :=
  (x.1, s.codec.encode (s.registry.reply x.1.id x.2))

/-- A dispatched call is answered right away, if there is a transport. -/
theorem Log.replies_dispatch (l : Log) (s : Session) (call : InboundCall)
    (result : Except DispatchFault Json) (time : ℕ) :
    (l ++ (Effect.dispatched call result :: s.replies call result).map fun e => (time, e)).replies =
      l.replies ++ if s.linked then [(time, s.answer (call, result))] else [] := by
  have apart : ∀ x, Effect.reply? x (.dispatched call result) = none := by
    intro x
    cases x <;> rfl
  have pair : Log.pairs Effect.reply?
      ((Effect.dispatched call result :: s.replies call result).map fun e => (time, e)) =
      if s.linked then [(time, s.answer (call, result))] else [] := by
    cases linked : s.linked <;>
      simp [Session.replies, linked, Log.pairs, Effect.reply?, Session.answer]
  rw [Log.replies, Log.pairs_append, pair, Log.replies]
  intro x _ y hy
  cases hy
  exact apart x.2

/-- Own calls answer no call of the peer, and no effect of a small step is that a call before it was
transmitted. -/
theorem Own.effects {d e : Desk} (h : Own d e) : ∃ es : List Effect,
    e.chronicle.log = d.chronicle.log ++ es.map (fun e => (d.chronicle.now, e)) ∧
      Effect.Unanswering es ∧ ∀ y ∈ es.head?, ∀ x, Effect.request? x y = none := by
  cases h with
  | turnAway | enqueue | take | transmit | untimed | miss | answer | lapse =>
    refine ⟨_, by simp only [Chronicle.log_becomes, Chronicle.log_ask, Chronicle.log_hears,
      Chronicle.log_owing]; rfl, ⟨?_, ?_⟩, ?_⟩ <;> simp [Effect.reply?, Effect.request?]
  | takeNext | stale =>
    exact ⟨[], Chronicle.log_becomes .., .nil, by simp⟩
  | handedOn => exact ⟨[], by simp, .nil, by simp⟩
  | beginClose => exact ⟨[], Chronicle.log_becomes .., .nil, by simp⟩
  | endClose =>
    exact ⟨_, Chronicle.log_becomes .., ⟨by simp [Effect.reply?], by simp [Effect.reply?]⟩,
      by simp [Effect.request?]⟩
  | @abandon c =>
    -- only outcomes are brought about
    have silent : ∀ e ∈ c.session.abandonment, (∀ y, Effect.reply? e y = none) ∧
        ∀ x, Effect.reply? x e = none ∧ Effect.request? x e = none := by
      intro e he
      obtain ⟨o, -, rfl⟩ := List.mem_map.1 he
      exact ⟨fun y => rfl, fun x => by cases x <;> exact ⟨rfl, rfl⟩⟩
    exact ⟨c.session.abandonment, Chronicle.log_becomes .., ⟨fun e he => (silent e he).1,
      fun y hy x => ((silent y (List.mem_of_head? hy)).2 x).1⟩,
      fun y hy x => ((silent y (List.mem_of_head? hy)).2 x).2⟩

/-! ## All texts -/

/-- The refusal of a text that is no frame, where there is one. -/
def Session.refusal? (s : Session) (text : String) : Option String :=
  match s.codec.decode text with
  | .ok _ => none
  | .error fault =>
    (Frame.answerable? text).map fun id =>
      s.codec.encode (.refusal id fault.code s.version Json.empty)

/-- What transmits no call leaves the requests as they are. -/
theorem Log.requests_append {l : Log} {es : List Effect}
    (h : ∀ y ∈ es, ∀ x, Effect.request? x y = none) (time : ℕ) :
    (l ++ es.map fun e => (time, e)).requests = l.requests := by
  have none : ∀ y ∈ es.map fun e => (time, e), ∀ x, Effect.request? x y.2 = none := by
    intro y hy x
    obtain ⟨e, he, rfl⟩ := List.mem_map.1 hy
    exact h e he x
  rw [Log.requests, Log.pairs_append fun x _ y hy => none y (List.mem_of_head? hy) x.2,
    Log.pairs_eq_nil fun x _ y hy => none y hy x.2, List.append_nil, Log.requests]

/-- Of own calls, only requests are transmitted: the text of the call in hand. -/
theorem Own.requests {d e : Desk} (h : Own d e) : ∃ new : List (ℕ × ℕ × String),
    e.chronicle.log.requests = d.chronicle.log.requests ++ new ∧
      e.chronicle.log.texts = d.chronicle.log.texts ++ new.map (·.2.2) ∧
      ∀ x ∈ new, ∃ q, d.hand = some q ∧ x.2.1 = q.owner.ticket ∧
        (q.owner.ticket, d.chronicle.session.nextId) ∈ e.chronicle.log.calls ∧
        x.2.2 = d.chronicle.session.codec.encode
          (.call d.chronicle.session.nextId q.action q.payload) := by
  cases h with
  | turnAway | enqueue | take | untimed | miss | answer | lapse | takeNext | stale | handedOn
  | beginClose | endClose =>
    refine ⟨[], ?_, by simp [Chronicle.log_becomes], by simp⟩
    simp only [Chronicle.log_becomes, Chronicle.log_ask, Chronicle.log_hears, Chronicle.log_owing,
      List.append_nil]
    try
      rw [Log.requests_append]
      simp [Effect.request?]
  | @transmit c q =>
    refine ⟨[(c.now, q.owner.ticket,
      c.session.codec.encode (.call c.session.nextId q.action q.payload))], ?_,
      by simp [Chronicle.log_becomes], ?_⟩
    rotate_left
    · intro x hx
      rw [List.mem_singleton.1 hx]
      exact ⟨q, rfl, rfl, by simp [Chronicle.log_becomes], rfl⟩
    rw [Chronicle.log_becomes, Log.requests, Log.pairs_append]
    · rfl
    · rintro ⟨time, x⟩ _ y hy
      cases hy
      cases x <;> rfl
  | @abandon c =>
    refine ⟨[], ?_, by simp [Chronicle.log_becomes], by simp⟩
    rw [Chronicle.log_becomes, Log.requests_append, List.append_nil]
    intro y hy x
    obtain ⟨o, -, rfl⟩ := List.mem_map.1 hy
    cases x <;> rfl

/-- What the peer asks transmits no call. -/
theorem Inbound.requests {c d : Chronicle} (h : Inbound c d) : d.log.requests = c.log.requests := by
  obtain ⟨es, foreign, log⟩ := h.log
  rw [log, Log.requests_append]
  intro y hy x
  have := foreign y hy
  cases x <;> cases y <;> first | rfl | cases this

/-- The text of a reply. -/
theorem Log.texts_replies (s : Session) (call : InboundCall) (result : Except DispatchFault Json)
    (time : ℕ) : texts ((s.replies call result).map fun e => (time, e)) =
      if s.linked then [(s.answer (call, result)).2] else [] := by
  cases linked : s.linked <;> simp [Session.replies, linked, Session.answer]

/-- Of what the peer asks, only replies and refusals of texts that are no frames are transmitted. -/
theorem Inbound.traffic {c d : Chronicle} (h : Inbound c d)
    (tidy : c.session.linked = true → ∀ x ∈ c.log.getLast?, ∀ y, Effect.reply? x.2 y = none) :
    ∃ (new : List (ℕ × InboundCall × String)) (refused : List String),
      d.log.replies = c.log.replies ++ new ∧
      d.log.texts = c.log.texts ++ (new.map (·.2.2) ++ refused) ∧
      (c.heard.filterMap c.session.refusal? ++ refused).Sublist
        (d.heard.filterMap d.session.refusal?) := by
  -- what is heard and not refused makes no difference
  have heard : ∀ {s : Session} {text : String}, s.codec = c.session.codec →
      s.registry = c.session.registry → (c.heard.filterMap c.session.refusal? ++ []).Sublist
        ((c.heard ++ [text]).filterMap s.refusal?) := by
    intro s text codec registry
    have same : s.refusal? = c.session.refusal? := by
      funext text
      simp only [Session.refusal?, Session.version, codec, registry]
    rw [same, List.filterMap_append, List.append_nil]
    exact List.sublist_append_left ..
  have still : (c.heard.filterMap c.session.refusal? ++ []).Sublist
      (c.heard.filterMap c.session.refusal?) :=
    (List.append_nil _).symm ▸ .refl _
  cases h with
  | unmatched | buffer =>
    refine ⟨[], [], ?_, by simp [Chronicle.log_becomes], heard rfl rfl⟩
    rw [Chronicle.log_hears, Chronicle.log_becomes, List.append_nil, Log.replies_append]
    exact ⟨by simp [Effect.reply?], by simp [Effect.reply?]⟩
  | ignore | drop => exact ⟨[], [], by simp, by simp, heard rfl rfl⟩
  | @refuse text fault id fails answerable linked =>
    refine ⟨[], [c.session.codec.encode (.refusal id fault.code c.session.version Json.empty)],
      ?_, ?_, ?_⟩
    · -- the refusal follows no dispatch, since every dispatch has got its reply
      rw [Chronicle.log_hears, Chronicle.log_becomes, Log.replies, Log.pairs_append]
      · rfl
      · exact fun x hx y _ => tidy linked x hx y.2
    · simp only [Chronicle.log_hears, Chronicle.log_becomes, Log.view_append]
      rfl
    · have refused : c.session.refusal? text = some (c.session.codec.encode
          (.refusal id fault.code c.session.version Json.empty)) := by
        simp [Session.refusal?, fails, answerable]
      show List.Sublist _ ((c.heard ++ [text]).filterMap c.session.refusal?)
      rw [List.filterMap_append, List.filterMap_cons, refused]
      exact .refl _
  | skip | takeUp =>
    refine ⟨[], [], ?_, by simp [Chronicle.log_becomes], still⟩
    rw [Chronicle.log_becomes, List.append_nil, Log.replies_append .nil]
  | enter =>
    refine ⟨[], [], ?_, by simp [Chronicle.log_becomes], still⟩
    rw [Chronicle.log_becomes, List.append_nil, Log.replies_append]
    exact ⟨by simp [Effect.reply?], by simp [Effect.reply?]⟩
  | decline =>
    refine ⟨_, [], by rw [Chronicle.log_becomes, Log.replies_dispatch], ?_, still⟩
    cases linked : c.session.linked <;> simp [Chronicle.log_becomes, Log.texts_replies, linked]
  | @leave call handler answer running =>
    have quiet : Effect.Unanswering [.returned call answer] :=
      ⟨by simp [Effect.reply?], by simp [Effect.reply?]⟩
    refine ⟨if c.session.linked then [(c.now, c.session.answer
      (call, Registry.conclude handler.message answer))] else [], [], ?_, ?_, still⟩
    · rw [← Log.replies_append (l := c.log) quiet c.now, ← Log.replies_dispatch,
        Chronicle.log_becomes, List.append_assoc]
      rfl
    · cases linked : c.session.linked <;> simp [Chronicle.log_becomes, Log.texts_replies, linked]

end ChargeLink

import ChargeLink.Proofs.Session.Peer

/-!
# Two sessions, each the peer of the other

Nothing ties the two together but that each hears what the other transmits:
their clocks, timers, callers and handlers are their own.

* `Pair.Reachable.faithful`: in every run, the calls of each end with what the
  other did for them.
-/

namespace ChargeLink

variable {D : Binary64 → Prop} {w : Vocabulary} {c d : Chronicle}

namespace Hears

variable {e : Chronicle}

/-- One end goes on: it may hear the next texts, and it transmits more. -/
theorem step (h : Hears D w c d) (h' : Hears D w d c) (speaks : c.session.registry.Speaks w)
    (step : c.Step e) (fifo : e.heard <+: d.log.texts) (apt : e.Apt D w) :
    Hears D w e d ∧ Hears D w d e := by
  have grows := step.grows
  have reachable := h'.reachable.step step
  have hears : Hears D w e d := by
    refine ⟨h.reachable, h.apt, h.clear, ?_, fifo⟩
    rw [grows.codec]
    exact h.readBy
  refine ⟨hears, reachable, apt, ?_, ?_, h'.heard.trans grows.texts⟩
  · refine hears.clear_of reachable apt ?_
    rw [grows.registry]
    exact speaks
  · rw [grows.codec]
    exact h'.readBy

/-- A session that was asked for nothing and has heard nothing has transmitted nothing. -/
theorem of_silent (reachable : d.Reachable) (asked : d.asked = []) (silent : d.heard = [])
    (heard : c.heard = []) (readBy : d.session.codec.ReadBy D c.session.codec) :
    Hears D w c d := by
  have served := Served.of_reachable reachable.desk
  have arrivals := served.arrivals
  have returns := served.returns
  -- without arrivals there is nothing to dispatch, so nothing was entered either
  have none : d.arrivals = [] := by rw [Chronicle.arrivals, silent, List.filterMap_nil]
  rw [none, List.sublist_nil, List.append_eq_nil_iff, List.append_eq_nil_iff,
    List.map_eq_nil_iff] at arrivals
  obtain ⟨dispatches, current, -⟩ := arrivals
  have entries := served.entries
  rw [dispatches, current, List.map_nil, List.append_nil, List.sublist_nil] at entries
  rw [entries, current, List.append_nil, eq_comm, List.map_eq_nil_iff] at returns
  refine ⟨reachable, ⟨?_, ?_⟩, ?_, readBy, ?_⟩
  · simp [asked]
  · simp [returns]
  · intro f justified
    cases justified with
    | call _ mine => simp [asked] at mine
    | reply mem => simp [dispatches] at mem
    | refusal _ mem => simp [silent] at mem
  · rw [heard]
    exact List.nil_prefix

end Hears

namespace Chronicle

/-- The text of a frame is heard. -/
def takes (c : Chronicle) (f : Frame) : Chronicle :=
  { c with
    turn := (c.turn.accept f).2
    owed := c.owed + (c.turn.accept f).1.toNat
    heard := c.heard ++ [c.session.codec.encode f] }

theorem hear_encode {f : Frame}
    (read : c.session.codec.decode (c.session.codec.encode f) = .ok f) :
    c.hear (c.session.codec.encode f) = c.takes f := by
  rw [Chronicle.hear, Turn.hear, read]
  rfl

theorem Step.takes {f : Frame}
    (read : c.session.codec.decode (c.session.codec.encode f) = .ok f) : Step c (c.takes f) :=
  hear_encode read ▸ .hear _

end Chronicle

/-- Two sessions, each the peer of the other. -/
structure Pair where
  left : Chronicle
  right : Chronicle

namespace Pair

/-- The handlers of both ends serve the vocabulary, and each end reads what the other writes. -/
structure Matched (D : Binary64 → Prop) (w : Vocabulary) (p : Pair) : Prop where
  left : p.left.session.registry.Speaks w
  right : p.right.session.registry.Speaks w
  up : p.left.session.codec.ReadBy D p.right.session.codec
  down : p.right.session.codec.ReadBy D p.left.session.codec

/-- The runs of two sessions that start in silence. At each step one of them does anything a session
may do; what it has heard by then is a prefix of what the other has transmitted. -/
inductive Reachable (D : Binary64 → Prop) (w : Vocabulary) : Pair → Prop
  | opened {p} (left : p.left.Reachable) (right : p.right.Reachable)
      (asked : p.left.asked = [] ∧ p.right.asked = [])
      (heard : p.left.heard = [] ∧ p.right.heard = []) (matched : p.Matched D w) : Reachable D w p
  | left {p d} : Reachable D w p → p.left.Step d → d.heard <+: p.right.log.texts → d.Apt D w →
      Reachable D w ⟨d, p.right⟩
  | right {p d} : Reachable D w p → p.right.Step d → d.heard <+: p.left.log.texts → d.Apt D w →
      Reachable D w ⟨p.left, d⟩

variable {p : Pair}

theorem Reachable.hears (h : p.Reachable D w) :
    Hears D w p.left p.right ∧ Hears D w p.right p.left ∧ p.Matched D w := by
  induction h with
  | opened left right asked heard matched =>
    exact ⟨.of_silent right asked.2 heard.2 heard.1 matched.down,
      .of_silent left asked.1 heard.1 heard.2 matched.up, matched⟩
  | @left p d _ step fifo apt ih =>
    obtain ⟨hl, hr, matched⟩ := ih
    obtain ⟨hl, hr⟩ := hl.step hr matched.left step fifo apt
    have grows := step.grows
    refine ⟨hl, hr, ?_, matched.right, hr.readBy, hl.readBy⟩
    rw [grows.registry]
    exact matched.left
  | @right p d _ step fifo apt ih =>
    obtain ⟨hl, hr, matched⟩ := ih
    obtain ⟨hr, hl⟩ := hr.step hl matched.right step fifo apt
    have grows := step.grows
    refine ⟨hl, hr, matched.left, ?_, hr.readBy, hl.readBy⟩
    rw [grows.registry]
    exact matched.right

/-- One end does several things in a row. -/
theorem Reachable.lefts (h : p.Reachable D w) (steps : Chronicle.Steps p.left d)
    (fifo : d.heard <+: p.right.log.texts) (apt : d.Apt D w) : Reachable D w ⟨d, p.right⟩ := by
  induction steps with
  | refl => exact h
  | tail _ step ih =>
    have grows := step.grows
    exact (ih (grows.heard.trans fifo) (apt.mono grows)).left step fifo apt

theorem Reachable.rights (h : p.Reachable D w) (steps : Chronicle.Steps p.right d)
    (fifo : d.heard <+: p.left.log.texts) (apt : d.Apt D w) : Reachable D w ⟨p.left, d⟩ := by
  induction steps with
  | refl => exact h
  | tail _ step ih =>
    have grows := step.grows
    exact (ih (grows.heard.trans fifo) (apt.mono grows)).right step fifo apt

/-! ## A run -/

/-- A card that asks to charge. -/
def card (tag : String) : Value :=
  .record [("idTag", .text tag)]

/-- Whether it may. -/
def verdict (status : String) : Value :=
  .record [("idTagInfo", statusOnly status)]

/-- Who decides. -/
def gate : Handler :=
  ⟨V16.authorize, fun _ _ => ⟨20, .reply (verdict "Accepted")⟩⟩

/-- A charge point with ten milliseconds for an answer. -/
def point : Chronicle :=
  .opened 0 "CP-1" (.empty .v16 .chargePoint) ⟨10, .queue, 1, .standard⟩ .json "own"
    (.create true) 0

/-- Its central system. -/
def central : Chronicle :=
  .opened 0 "CP-1" ⟨.v16, .centralSystem, [gate], List.pairwise_singleton ..⟩
    ⟨10, .queue, 1, .standard⟩ .json "own" (.create true) 0

/-- The charge point asks whether a card may charge. -/
def question (id tag : String) : Frame :=
  .call id "Authorize" (card tag).encode

/-- The central system tells. -/
def answer (id status : String) : Frame :=
  .result id (verdict status).encode

/-- The timer of the first call. -/
def timer : Timer Expiry :=
  ⟨0, 10, ⟨0, "own#1"⟩⟩

/-- The charge point has asked for a card and got no answer in time. -/
def unanswered : Chronicle :=
  ((point.send V16.authorize (card "A-1")).wait 10).ring timer

/-- The charge point has asked for another card. -/
def asking : Chronicle :=
  unanswered.pump.send V16.authorize (card "B-2")

/-- The central system has heard of both cards, takes the one and blocks the other. -/
def deciding : Chronicle :=
  ((((central.takes (question "own#1" "A-1")).takes (question "own#2" "B-2")).serve.finish
    (.reply (verdict "Accepted"))).serve).finish (.reply (verdict "Blocked"))

/-- Both answers have come, the first one late. -/
def late : Pair :=
  ⟨(asking.takes (answer "own#1" "Accepted")).takes (answer "own#2" "Blocked"), deciding⟩

theorem mem_authorize : V16.authorize ∈ Version.v16.vocabulary.messages :=
  List.mem_cons_self

theorem typed_card (tag : String) : V16.authorize.request.Typed Json.NoDouble (card tag) :=
  .inr ⟨_, _, rfl, trivial, rfl⟩

theorem typed_verdict {status : String} (known : status ∈ ["Accepted", "Blocked"]) :
    V16.authorize.confirmation.Typed Json.NoDouble (verdict status) := by
  refine .inr ⟨_, _, rfl, .inr ⟨_, _, rfl, ?_, .inl ⟨rfl, .inl ⟨rfl, rfl⟩⟩⟩, rfl⟩
  exact List.mem_of_mem_take (i := 2) known

theorem plain_question (id tag : String) : (question id tag).Plain Json.NoDouble :=
  ⟨PayloadType.plain (Version.v16.vocabulary.readable _ mem_authorize).1 (typed_card tag), rfl⟩

theorem plain_answer (id : String) {status : String} (known : status ∈ ["Accepted", "Blocked"]) :
    (answer id status).Plain Json.NoDouble :=
  ⟨PayloadType.plain (Version.v16.vocabulary.readable _ mem_authorize).2 (typed_verdict known), rfl⟩

/-- Who asks only about cards, and tells only whether one is accepted or blocked, keeps to the
vocabulary. -/
theorem apt_of {c : Chronicle} (asked : ∀ x ∈ c.asked, ∃ tag, x = (V16.authorize, card tag))
    (returns : ∀ x ∈ c.log.returns, x.1.action = V16.authorize.action ∧
      ∃ status ∈ ["Accepted", "Blocked"], x.2 = .reply (verdict status)) :
    c.Apt Json.NoDouble Version.v16.vocabulary := by
  constructor
  · intro m v mem
    obtain ⟨tag, same⟩ := asked _ mem
    cases same
    exact ⟨mem_authorize, typed_card tag⟩
  · intro call v mem m known action
    obtain ⟨authorize, status, allowed, same⟩ := returns _ mem
    cases same
    rw [Vocabulary.eq_of_action known mem_authorize (action.trans authorize)]
    exact typed_verdict allowed

theorem steps_asking : Chronicle.Steps point asking := by
  have own : (point.send V16.authorize (card "A-1")).timers.ofSession 0 = [timer] := rfl
  have punctual : ∀ t ∈ (point.send V16.authorize (card "A-1")).timers.ofSession 0,
      0 + 10 ≤ t.deadline := by
    intro t ht
    rw [own] at ht
    rw [List.mem_singleton.1 ht]
    decide
  have lapse : Chronicle.Steps point unanswered :=
    ((Relation.ReflTransGen.single (.send _ _)).tail (.wait 10 rfl punctual)).tail
      (.ring timer List.mem_cons_self (Nat.le_refl 10))
  exact (lapse.tail (.pump Nat.zero_lt_one)).tail (.send _ _)

theorem steps_deciding : Chronicle.Steps central deciding := by
  have heard : Chronicle.Steps central
      ((central.takes (question "own#1" "A-1")).takes (question "own#2" "B-2")) :=
    (Relation.ReflTransGen.single (.takes (Frame.json_readBy _ (plain_question ..)))).tail
      (.takes (Frame.json_readBy _ (plain_question ..)))
  exact (((heard.trans (Chronicle.steps_serve _)).tail (.finish _)).trans
    (Chronicle.steps_serve _)).tail (.finish _)

theorem steps_late : Chronicle.Steps asking late.left :=
  (Relation.ReflTransGen.single (.takes (Frame.json_readBy _ (plain_answer _ (by simp))))).tail
    (.takes (Frame.json_readBy _ (plain_answer _ (by simp))))

theorem Reachable.late : late.Reachable Json.NoDouble Version.v16.vocabulary := by
  have start : Pair.Reachable Json.NoDouble Version.v16.vocabulary ⟨point, central⟩ := by
    refine .opened (.opened _ _ _ _ _ _ _ _ ⟨?_, .nil⟩ rfl) (.opened _ _ _ _ _ _ _ _ ⟨?_, .nil⟩ rfl)
      ⟨rfl, rfl⟩ ⟨rfl, rfl⟩ ⟨?_, ?_, Frame.json_readBy, Frame.json_readBy⟩
    · simp [Supervisor.create]
    · simp [Supervisor.create]
    · intro h mem
      cases mem
    · intro h mem
      rw [List.mem_singleton.1 mem]
      exact mem_authorize
  have two : ∀ x ∈ asking.asked, ∃ tag, x = (V16.authorize, card tag) := by
    have asked : asking.asked = [(V16.authorize, card "A-1"), (V16.authorize, card "B-2")] := rfl
    rw [asked]
    simp
  have asked : Pair.Reachable Json.NoDouble Version.v16.vocabulary ⟨asking, central⟩ :=
    start.lefts steps_asking List.nil_prefix (apt_of two fun x mem => by cases mem)
  have decided : Pair.Reachable Json.NoDouble Version.v16.vocabulary ⟨asking, deciding⟩ := by
    refine asked.rights steps_deciding (List.prefix_refl _) (apt_of ?_ ?_)
    · exact fun x mem => by cases mem
    · have returns : deciding.log.returns =
          [(⟨"own#1", "Authorize", (card "A-1").encode⟩, .reply (verdict "Accepted")),
            (⟨"own#2", "Authorize", (card "B-2").encode⟩, .reply (verdict "Blocked"))] := rfl
      rw [returns]
      simp [V16.authorize]
  exact decided.lefts steps_late (List.prefix_refl _) (apt_of two fun x mem => by cases mem)

/-! ## What both ends learn -/

/-- **Whatever the two sessions and the channels do, calls end with what the peer did for them.** -/
theorem Reachable.faithful (h : p.Reachable D w) :
    Faithful p.left p.right ∧ Faithful p.right p.left := by
  obtain ⟨left, right, matched⟩ := h.hears
  exact ⟨left.calls_faithful right matched.right, right.calls_faithful left matched.left⟩

/-- The late answer to the first call is not taken for the answer to the second. -/
theorem faithful_late :
    late.left.log.settlements = [(0, 10, .error .timeout), (1, 10, .ok (verdict "Blocked"))] ∧
    Faithful late.left late.right ∧ Faithful late.right late.left :=
  ⟨rfl, Reachable.faithful Reachable.late⟩

end Pair

end ChargeLink

import ChargeLink.Proofs.Session.Halves
import ChargeLink.Proofs.Session.Moves
import ChargeLink.Proofs.Session.Replies

/-!
# The two directions of a session

Leaving out the moves that belong to one side, a run goes on as before for the
other side. The run with all moves and the one without some are taken step by
step together: what is left out makes no difference to the half of the session
that it does not belong to, and what is left in does the same to that half in
both runs.

* `OwnAlike.run`: without the moves of the peer, own calls fare the same.
* `PeerAlike.run`: without own calls, the calls of the peer fare the same.
* `Chronicle.directions_apart`: so it is for every run of a session.
-/

namespace ChargeLink

variable {c d e : Chronicle}

/-! ## What own calls bring about -/

/-- `d` follows `c` at the same time, after effects that leave the requests and replies before them
as they are. -/
structure Detached (c d : Chronicle) : Prop where
  now : d.now = c.now
  later : ∃ later : Log, d.log = c.log ++ later ∧ (∀ x ∈ later, ∀ y, Effect.reply? x.2 y = none) ∧
    ∀ y ∈ later.head?, ∀ x, Effect.reply? x y.2 = none ∧ Effect.request? x y.2 = none

namespace Detached

theorem same (now : d.now = c.now) (log : d.log = c.log) : Detached c d :=
  ⟨now, [], by rw [log, List.append_nil], by simp, by simp⟩

theorem trans (h : Detached c d) (h' : Detached d e) : Detached c e := by
  obtain ⟨now, later, log, quiet, first⟩ := h
  obtain ⟨now', later', log', quiet', first'⟩ := h'
  refine ⟨now'.trans now, later ++ later', ?_, ?_, ?_⟩
  · rw [log', log, List.append_assoc]
  · intro x hx
    rcases List.mem_append.1 hx with hx | hx
    · exact quiet x hx
    · exact quiet' x hx
  · cases later with
    | nil => exact first'
    | cons x rest => exact first

theorem own {d e : Desk} (h : Own d e) : Detached d.chronicle e.chronicle := by
  obtain ⟨es, log, quiet, first⟩ := h.effects
  refine ⟨by cases h <;> rfl, _, log, ?_, ?_⟩
  · intro x hx y
    obtain ⟨e, he, rfl⟩ := List.mem_map.1 hx
    exact quiet.dispatch e he y
  · intro y hy x
    rw [List.head?_map] at hy
    obtain ⟨e, he, rfl⟩ := Option.map_eq_some_iff.1 hy
    exact ⟨quiet.first e he x, first e he x⟩

theorem closing (c : Chronicle) (step : ClosingStep) : Detached c (c.closing step) := by
  rcases c.closing_own step with same | step
  · rw [same]
    exact .same rfl rfl
  · exact own step

/-- No call of the peer is answered. -/
theorem replies (h : Detached c d) : d.log.replies = c.log.replies := by
  obtain ⟨-, later, log, quiet, first⟩ := h
  rw [log, Log.replies, Log.pairs_append fun x _ y hy => (first y hy x.2).1,
    Log.pairs_eq_nil fun x hx y _ => quiet x hx y.2, List.append_nil, Log.replies]

/-- The requests are those before and those among the effects. -/
theorem requests {later : Log} (h : Detached c d) (log : d.log = c.log ++ later) :
    d.log.requests = c.log.requests ++ later.requests := by
  obtain ⟨-, later', log', -, first⟩ := h
  obtain rfl : later' = later := List.append_cancel_left (log'.symm.trans log)
  rw [log, Log.requests, Log.pairs_append fun x _ y hy => (first y hy x.2).2, Log.requests,
    Log.requests]

end Detached

/-- `d` follows `c` by something that concerns own calls only. -/
structure Aside (c d : Chronicle) : Prop extends Detached c d where
  half : Half.peer.only d.turn = Half.peer.only c.turn

namespace Aside

/-- A timer more or less makes no difference to the calls of the peer. -/
theorem own {d e : Desk} (h : Own d e)
    (phase : e.chronicle.session.phase = d.chronicle.session.phase)
    (abandoned : e.chronicle.session.abandoned = d.chronicle.session.abandoned) :
    Aside d.chronicle e.chronicle := by
  refine ⟨.own h, ?_⟩
  cases h with
  | answer | lapse =>
    simp [Half.peer, Chronicle.becomes, Chronicle.hears, Chronicle.owing, Supervisor.abort,
      Supervisor.hasLoop_release]
  | beginClose isOpen => cases phase.trans isOpen
  | abandon _ first => cases abandoned.trans first
  | endClose closing => cases phase.trans closing
  | _ => rfl

theorem owns {d e : Desk} (h : Owns d e) : Aside d.chronicle e.chronicle := by
  induction h with
  | refl => exact ⟨.same rfl rfl, rfl⟩
  | tail _ step ih =>
    have step := own step.1 step.2.1 step.2.2
    exact ⟨ih.toDetached.trans step.toDetached, step.half.trans ih.half⟩

/-- Answers that match no call are published. -/
theorem unmatched (id text : String) : Aside c ((c.becomes c.session c.timers
    [.published (c.session.event (.unmatched id))]).hears text) := by
  refine ⟨⟨rfl, _, (Chronicle.log_hears ..).trans (Chronicle.log_becomes ..), ?_, ?_⟩, rfl⟩
  · simp [Effect.reply?]
  · simp [Effect.reply?, Effect.request?]

/-- The moves of own calls concern own calls only. -/
theorem after {m : Move} (own : m.side? c.session.codec = some .own) (allowed : c.Allows m) :
    Aside c (c.after m) := by
  cases m with
  | send m v => exact owns (c.send_owns m v)
  | hear text =>
    cases answers : c.session.codec.answers text with
    | false => simp [Move.side?, answers] at own
    | true =>
      rcases c.hear_owns answers with h | ⟨id, -, h⟩
      · exact owns h
      · rw [Chronicle.after, h]
        exact unmatched id text
  | ring timer => exact owns (c.ring_owns timer allowed.1 allowed.2)
  | pump => exact owns (c.pump_owns allowed)
  | _ => cases own

end Aside

/-! ## What the peer asks -/

/-- The moves of the peer are steps of what it asks, or do nothing. -/
theorem Chronicle.after_peer {m : Move} (peer : m.side? c.session.codec = some .peer) :
    c.after m = c ∨ Inbound c (c.after m) := by
  cases m with
  | hear text =>
    cases answers : c.session.codec.answers text with
    | false => exact .inr (c.hear_inbound answers)
    | true => simp [Move.side?, answers] at peer
  | takeUp => exact c.takeUp_inbound
  | handle => exact c.handle_inbound
  | finish answer => exact c.finish_inbound answer
  | _ => cases peer

theorem Chronicle.now_peer {m : Move} (peer : m.side? c.session.codec = some .peer) :
    (c.after m).now = c.now := by
  rcases Chronicle.after_peer peer with same | inbound
  · rw [same]
  · exact inbound.same.now

/-- What the peer asks leaves the half of own calls alone. -/
theorem Inbound.half (h : Inbound c d) : Half.own.only d.turn = Half.own.only c.turn := by
  cases h <;> rfl

/-- The replies are those before and those among the effects. -/
theorem Inbound.replies {later : Log} (h : Inbound c d) (replied : Replied c)
    (log : d.log = c.log ++ later) : d.log.replies = c.log.replies ++ later.replies := by
  -- only a refusal begins with a text, and it needs a transport
  have first : ∃ es : List Effect, d.log = c.log ++ es.map (fun e => (c.now, e)) ∧
      (c.session.linked = true ∨ ∀ y ∈ es.head?, ∀ x, Effect.reply? x y = none) := by
    cases h with
    | unmatched | buffer =>
      refine ⟨_, (Chronicle.log_hears ..).trans (Chronicle.log_becomes ..), .inr ?_⟩
      simp [Effect.reply?]
    | refuse fails answerable linked =>
      exact ⟨_, (Chronicle.log_hears ..).trans (Chronicle.log_becomes ..), .inl linked⟩
    | ignore | drop => exact ⟨[], by simp, .inr (by simp)⟩
    | skip | takeUp | decline | enter | leave =>
      exact ⟨_, Chronicle.log_becomes .., .inr (by simp [Effect.reply?])⟩
  obtain ⟨es, log', first⟩ := first
  obtain rfl : es.map (fun e => (c.now, e)) = later := List.append_cancel_left (log'.symm.trans log)
  rw [log, Log.replies, Log.pairs_append, Log.replies, Log.replies]
  intro x hx y hy
  rcases first with linked | first
  · exact replied.tidy linked x hx y.2
  · rw [List.head?_map] at hy
    obtain ⟨e, he, rfl⟩ := Option.map_eq_some_iff.1 hy
    exact first e he x.2

/-- So it is after a move of the peer. -/
theorem Replied.replies_peer {m : Move} {later : Log} (h : Replied c)
    (peer : m.side? c.session.codec = some .peer) (log : (c.after m).log = c.log ++ later) :
    (c.after m).log.replies = c.log.replies ++ later.replies := by
  rcases Chronicle.after_peer peer with same | inbound
  · rw [same] at log ⊢
    rw [List.self_eq_append_right.1 log]
    exact (List.append_nil _).symm
  · exact inbound.replies h log

/-- What an operation adds to the effects, it adds to the log. -/
theorem Chronicle.log_of_effects {es : List Effect} (now : d.now = c.now) (past : d.past = c.past)
    (effects : d.turn.effects = c.turn.effects ++ es) :
    d.log = c.log ++ es.map fun e => (c.now, e) := by
  rw [log, log, now, past, effects, List.map_append, List.append_assoc]

theorem Chronicle.log_wait (c : Chronicle) (ms : ℕ) : (c.wait ms).log = c.log :=
  List.append_nil _

/-! ## Own calls with and without the peer -/

/-- Two chronicles are alike in own calls. -/
structure OwnAlike (c d : Chronicle) : Prop where
  half : Half.own.only c.turn = Half.own.only d.turn
  owed : c.owed = d.owed
  requests : c.log.requests = d.log.requests
  settlements : c.log.settlements = d.log.settlements

namespace OwnAlike

theorem refl (c : Chronicle) : OwnAlike c c :=
  ⟨rfl, rfl, rfl, rfl⟩

theorem codec (h : OwnAlike c d) : c.session.codec = d.session.codec :=
  congrArg (·.session.codec) h.half

theorem number (h : OwnAlike c d) : c.session.number = d.session.number :=
  congrArg (·.session.number) h.half

theorem timers (h : OwnAlike c d) : c.timers = d.timers :=
  congrArg (·.timers) h.half

theorem now (h : OwnAlike c d) : c.now = d.now :=
  congrArg (·.now) h.half

/-- What is possible in the one is possible in the other. -/
theorem allows {m : Move} (h : OwnAlike c d) (allowed : c.Allows m) : d.Allows m := by
  cases m with
  | ring | pump | share | wait =>
    simp only [Chronicle.Allows, h.timers, h.number, h.now, h.owed] at allowed
    exact allowed
  | _ => trivial

/-- An operation that is blind to the peer, and answers no call of it, keeps both alike. -/
theorem advance {c' d' : Chronicle} {f : Turn → Turn} (h : OwnAlike c d)
    (blind : ∀ p before, f ((Half.own.only c.turn).withPeer p before) =
      (f (Half.own.only c.turn)).withPeer p before)
    (turn : c'.turn = f c.turn) (turn' : d'.turn = f d.turn) (past : c'.past = c.past)
    (past' : d'.past = d.past) (owed : c'.owed = d'.owed) (left : Detached c c')
    (right : Detached d d') : OwnAlike c' d' := by
  obtain ⟨half, es, effects, effects'⟩ := Half.congr (h := .own) blind h.half
  have log := Chronicle.log_of_effects left.now past (turn ▸ effects)
  have log' := Chronicle.log_of_effects right.now past' (turn' ▸ effects')
  refine ⟨turn ▸ turn' ▸ half, owed, ?_, ?_⟩
  · rw [left.requests log, right.requests log', h.requests, h.now]
  · simp only [log, log', Log.view_append, ← h.now]
    exact congrArg (· ++ _) h.settlements

/-- A move of the peer makes no difference. -/
theorem peer {m : Move} (h : OwnAlike c d) (peer : m.side? c.session.codec = some .peer) :
    OwnAlike (c.after m) d := by
  rcases Chronicle.after_peer peer with same | inbound
  · rw [same]
    exact h
  · obtain ⟨-, -, -, settlements⟩ := inbound.ownLog
    exact ⟨inbound.half.trans h.half, inbound.same.owed.trans h.owed,
      inbound.requests.trans h.requests, settlements.trans h.settlements⟩

/-- Any other move does the same in both. -/
theorem kept {m : Move} (h : OwnAlike c d) (kept : m.side? c.session.codec ≠ some .peer)
    (allowed : c.Allows m) : OwnAlike (c.after m) (d.after m) := by
  have detached : m.side? c.session.codec = some .own →
      Detached c (c.after m) ∧ Detached d (d.after m) := fun own =>
    ⟨(Aside.after own allowed).toDetached,
      (Aside.after (h.codec ▸ own) (h.allows allowed)).toDetached⟩
  cases m with
  | send m v =>
    obtain ⟨left, right⟩ := detached rfl
    exact h.advance (f := fun t => (t.send m v).2) (fun _ _ => Turn.send_withPeer ..) rfl rfl rfl
      rfl h.owed left right
  | hear text =>
    cases answers : c.session.codec.answers text with
    | false => simp [Move.side?, answers] at kept
    | true =>
      obtain ⟨left, right⟩ := detached (by simp [Move.side?, answers])
      obtain ⟨f, id, raw, decodes, answer⟩ := Codec.exists_of_answers answers
      have heard := Turn.hear_answer (t := c.turn) decodes answer
      have heard' := Turn.hear_answer (t := d.turn) (h.codec ▸ decodes) answer
      have freed : (c.turn.hear text).1 = (d.turn.hear text).1 := by
        rw [heard, heard']
        exact Half.congr_of_eq (h := .own) (g := fun t => (t.answered id raw).1)
          (fun _ _ => (Prod.ext_iff.1 (Turn.answered_withPeer id raw)).1) h.half
      exact h.advance (f := fun t => (t.answered id raw).2)
        (fun _ _ => (Prod.ext_iff.1 (Turn.answered_withPeer id raw)).2) (congrArg Prod.snd heard)
        (congrArg Prod.snd heard') rfl rfl
        (by simp only [Chronicle.after, Chronicle.hear, freed, h.owed]) left right
  | ring timer =>
    obtain ⟨left, right⟩ := detached rfl
    have freed : (c.turn.ring timer).1 = (d.turn.ring timer).1 :=
      Half.congr_of_eq (h := .own) (g := fun t => (t.ring timer).1)
        (fun _ _ => (Prod.ext_iff.1 (Turn.ring_withPeer timer)).1) h.half
    exact h.advance (f := fun t => (t.ring timer).2)
      (fun _ _ => (Prod.ext_iff.1 (Turn.ring_withPeer timer)).2) rfl rfl rfl rfl
      (by simp only [Chronicle.after, Chronicle.ring, freed, h.owed]) left right
  | pump =>
    obtain ⟨left, right⟩ := detached rfl
    exact h.advance (f := Turn.pump) (fun _ _ => Turn.pump_withPeer) rfl rfl rfl rfl
      (congrArg (· - 1) h.owed) left right
  | unlink =>
    exact h.advance (f := Turn.unlink) (fun _ _ => rfl) rfl rfl rfl rfl h.owed (.same rfl rfl)
      (.same rfl rfl)
  | closing step =>
    exact h.advance (f := fun t => t.closing step) (fun _ _ => Turn.closing_withPeer step) rfl rfl
      rfl rfl h.owed (.closing c step) (.closing d step)
  | share timers =>
    exact h.advance (f := fun t => { t with timers }) (fun _ _ => rfl) rfl rfl rfl rfl h.owed
      (.same rfl rfl) (.same rfl rfl)
  | wait ms =>
    refine ⟨congrArg (fun t => { t with now := t.now + ms }) h.half, h.owed, ?_, ?_⟩
    all_goals simp only [Chronicle.after, Chronicle.log_wait]
    · exact h.requests
    · exact h.settlements
  | _ => exact absurd rfl kept

/-- **Without the moves of the peer, own calls fare the same.** -/
theorem run : ∀ (moves : List Move) {c d : Chronicle}, OwnAlike c d → c.Admits moves →
    d.Admits (Move.withoutPeer c.session.codec moves) ∧
      OwnAlike (c.run moves) (d.run (Move.withoutPeer c.session.codec moves))
  | [], _, _, h, _ => ⟨trivial, h⟩
  | m :: moves, c, d, h, ⟨allowed, admitted⟩ => by
    have codec : (c.after m).session.codec = c.session.codec := allowed.step.grows.codec
    by_cases peer : m.side? c.session.codec = some .peer
    · obtain ⟨rest, alike⟩ := run moves (h.peer peer) admitted
      rw [codec] at rest alike
      rw [Move.withoutPeer, List.filter_cons_of_neg (by simp [peer])]
      exact ⟨rest, alike⟩
    · obtain ⟨rest, alike⟩ := run moves (h.kept peer allowed) admitted
      rw [codec] at rest alike
      rw [Move.withoutPeer, List.filter_cons_of_pos (by simp [peer])]
      exact ⟨⟨h.allows allowed, rest⟩, alike⟩

end OwnAlike

/-! ## Calls of the peer with and without own calls -/

/-- Closing a session without an outstanding call disarms no timer. -/
theorem Turn.closing_vacant {t : Turn} (free : t.session.slot = .empty) (step : ClosingStep) :
    (t.closing step).session.slot = .empty ∧ (t.closing step).timers = t.timers := by
  cases step with
  | start =>
    rw [closing, beginClose]
    split <;> exact ⟨free, rfl⟩
  | abandon =>
    by_cases due : t.session.phase = .closing ∧ t.session.abandoned = none
    · rw [closing, abandon_of_closing due.1 due.2, free]
      exact ⟨rfl, rfl⟩
    · rw [closing, abandon_idle due]
      exact ⟨free, rfl⟩
  | finish =>
    rw [closing, endClose]
    split <;> exact ⟨free, rfl⟩

/-- Two chronicles are alike in the calls of the peer, and the second has no own calls. -/
structure PeerAlike (c d : Chronicle) : Prop where
  half : Half.peer.only c.turn = Half.peer.only d.turn
  replies : c.log.replies = d.log.replies
  slot : d.session.slot = .empty
  timers : d.timers.ofSession d.session.number = []
  owed : d.owed = 0

namespace PeerAlike

theorem codec (h : PeerAlike c d) : c.session.codec = d.session.codec :=
  congrArg (·.session.codec) h.half

theorem number (h : PeerAlike c d) : c.session.number = d.session.number :=
  congrArg (·.session.number) h.half

theorem loop (h : PeerAlike c d) : c.timers.hasLoop = d.timers.hasLoop :=
  congrArg (·.timers.hasLoop) h.half

theorem now (h : PeerAlike c d) : c.now = d.now :=
  congrArg (·.now) h.half

/-- A move of own calls makes no difference. -/
theorem own {m : Move} (h : PeerAlike c d) (own : m.side? c.session.codec = some .own)
    (allowed : c.Allows m) : PeerAlike (c.after m) d := by
  have aside := Aside.after own allowed
  exact ⟨aside.half.trans h.half, aside.replies.trans h.replies, h.slot, h.timers, h.owed⟩

/-- A move of the peer does the same in both. -/
theorem peer {m : Move} (h : PeerAlike c d) (left : Replied c) (right : Replied d)
    (peer : m.side? c.session.codec = some .peer) : PeerAlike (c.after m) (d.after m) := by
  have peer' : m.side? d.session.codec = some .peer := h.codec ▸ peer
  -- it is one operation on turns, blind to own calls
  have blind : ∃ f : Turn → Turn, (c.after m).turn = f c.turn ∧ (d.after m).turn = f d.turn ∧
      (c.after m).past = c.past ∧ (d.after m).past = d.past ∧
      ∀ o before, f ((Half.peer.only c.turn).withOwn o before) =
        (f (Half.peer.only c.turn)).withOwn o before := by
    cases m with
    | hear text =>
      cases answers : c.session.codec.answers text with
      | true => simp [Move.side?, answers] at peer
      | false =>
        exact ⟨fun t => (t.hear text).2, rfl, rfl, rfl, rfl,
          fun _ _ => (Prod.ext_iff.1 (Turn.hear_withOwn (t := Half.peer.only c.turn) answers)).2⟩
    | takeUp => exact ⟨Turn.takeUp, rfl, rfl, rfl, rfl, fun _ _ => Turn.takeUp_withOwn⟩
    | handle => exact ⟨Turn.handle, rfl, rfl, rfl, rfl, fun _ _ => Turn.handle_withOwn⟩
    | finish answer =>
      exact ⟨fun t => t.finish answer, rfl, rfl, rfl, rfl, fun _ _ => Turn.finish_withOwn answer⟩
    | _ => cases peer
  obtain ⟨f, turn, turn', past, past', blind⟩ := blind
  obtain ⟨half, es, effects, effects'⟩ := Half.congr (h := .peer) blind h.half
  have log := Chronicle.log_of_effects (Chronicle.now_peer peer) past (turn ▸ effects)
  have log' := Chronicle.log_of_effects (Chronicle.now_peer peer') past' (turn' ▸ effects')
  have replies : (c.after m).log.replies = (d.after m).log.replies := by
    rw [left.replies_peer peer log, right.replies_peer peer' log', h.replies, h.now]
  have half : Half.peer.only (c.after m).turn = Half.peer.only (d.after m).turn :=
    turn ▸ turn' ▸ half
  rcases Chronicle.after_peer peer' with same | inbound
  · rw [same] at half replies ⊢
    exact ⟨half, replies, h.slot, h.timers, h.owed⟩
  · have same := inbound.same
    refine ⟨half, replies, same.slot.trans h.slot, ?_, same.owed.trans h.owed⟩
    rw [same.timers, same.number]
    exact h.timers

/-- A move that belongs to both sides does the same in both. -/
theorem both {m : Move} (h : PeerAlike c d) (both : m.side? c.session.codec = none) :
    PeerAlike (c.after m) (d.after (m.clear c.session.number)) := by
  cases m with
  | unlink =>
    exact ⟨congrArg Turn.unlink h.half, h.replies, h.slot, h.timers, h.owed⟩
  | closing step =>
    have replies : (c.closing step).log.replies = (d.closing step).log.replies := by
      rw [(Detached.closing c step).replies, (Detached.closing d step).replies, h.replies]
    -- no call is outstanding whose timer could be disarmed
    have vacant : (d.closing step).session.slot = .empty ∧ (d.closing step).timers = d.timers :=
      Turn.closing_vacant h.slot step
    refine ⟨Turn.closing_peer h.half step, replies, vacant.1, ?_, h.owed⟩
    show (d.closing step).timers.ofSession (d.closing step).session.number = []
    rw [vacant.2, (Chronicle.Step.closing (c := d) step).grows.number]
    exact h.timers
  | share timers =>
    have none : (timers.besides c.session.number).ofSession d.session.number = [] := by
      rw [h.number]
      exact Supervisor.ofSession_besides ..
    exact ⟨congrArg (fun t => { t with timers := ⟨timers.hasLoop, 0, []⟩ }) h.half, h.replies,
      h.slot, none, h.owed⟩
  | wait ms =>
    refine ⟨congrArg (fun t => { t with now := t.now + ms }) h.half, ?_, h.slot, h.timers, h.owed⟩
    simp only [Chronicle.after, Move.clear, Chronicle.log_wait]
    exact h.replies
  | hear text =>
    cases answers : c.session.codec.answers text <;> simp [Move.side?, answers] at both
  | _ => cases both

theorem allows {m : Move} (h : PeerAlike c d) (kept : m.side? c.session.codec ≠ some .own)
    (allowed : c.Allows m) : d.Allows (m.clear c.session.number) := by
  cases m with
  | share timers =>
    refine ⟨allowed.1.besides _, allowed.2.1.trans h.loop, ?_⟩
    rw [h.timers, h.number]
    exact Supervisor.ofSession_besides ..
  | wait ms =>
    refine ⟨h.owed, fun t ht => ?_⟩
    rw [h.timers] at ht
    cases ht
  | ring | pump => exact absurd rfl kept
  | _ => trivial

/-- **Without own calls, the calls of the peer fare the same.** -/
theorem run : ∀ (moves : List Move) {c d : Chronicle}, PeerAlike c d → c.Reachable → d.Reachable →
    c.Admits moves →
    d.Admits (Move.withoutOwn c.session.codec c.session.number moves) ∧
      PeerAlike (c.run moves) (d.run (Move.withoutOwn c.session.codec c.session.number moves))
  | [], _, _, h, _, _, _ => ⟨trivial, h⟩
  | m :: moves, c, d, h, hc, hd, ⟨allowed, admitted⟩ => by
    have grows := allowed.step.grows
    have reachable := hc.step allowed.step
    by_cases own : m.side? c.session.codec = some .own
    · obtain ⟨rest, alike⟩ := run moves (h.own own allowed) reachable hd admitted
      rw [grows.codec, grows.number] at rest alike
      rw [Move.withoutOwn, List.filter_cons_of_neg (by simp [own])]
      exact ⟨rest, alike⟩
    · have allowed' := h.allows own allowed
      have next : PeerAlike (c.after m) (d.after (m.clear c.session.number)) := by
        cases side : m.side? c.session.codec with
        | none => exact h.both side
        | some whose =>
          cases whose with
          | own => exact absurd side own
          | peer =>
            have same : m.clear c.session.number = m := by
              cases m <;> first | rfl | cases side
            rw [same]
            exact h.peer (.of_reachable hc.desk) (.of_reachable hd.desk) side
      obtain ⟨rest, alike⟩ := run moves next reachable (hd.step allowed'.step) admitted
      rw [grows.codec, grows.number] at rest alike
      rw [Move.withoutOwn, List.filter_cons_of_pos (by simp [own])]
      exact ⟨⟨allowed', rest⟩, alike⟩

end PeerAlike

/-! ## Both directions -/

namespace Chronicle

variable {number now : ℕ} {chargePointId label : String} {registry : Registry}
  {config : SessionConfig} {codec : Codec} {timers : Supervisor Expiry} {moves : List Move}

/-- **The two directions of a session do not interfere.** From any run of a session, the calls of
the peer and the texts that are no frames can be left out: the moves that remain make a run, in which
the session transmits the same requests at the same times, and the sends have the same outcomes at
the same times. Or the own sends, their answers and their timers can be left out: then it is the
replies to the calls of the peer that are the same, in their order and at their times. -/
theorem directions_apart (keyed : timers.Keyed) (unused : timers.ofSession number = [])
    (admitted : (opened number chargePointId registry config codec label timers now).Admits moves) :
    let c := opened number chargePointId registry config codec label timers now
    (c.Admits (Move.withoutPeer codec moves) ∧
      (c.run (Move.withoutPeer codec moves)).log.requests = (c.run moves).log.requests ∧
      (c.run (Move.withoutPeer codec moves)).log.settlements = (c.run moves).log.settlements) ∧
    (c.Admits (Move.withoutOwn codec number moves) ∧
      (c.run (Move.withoutOwn codec number moves)).log.replies = (c.run moves).log.replies) := by
  intro c
  have reachable : c.Reachable := .opened _ _ _ _ _ _ _ _ keyed unused
  obtain ⟨quiet, own⟩ := OwnAlike.run moves (.refl c) admitted
  obtain ⟨listening, peer⟩ := PeerAlike.run moves ⟨rfl, rfl, rfl, unused, rfl⟩ reachable reachable
    admitted
  exact ⟨⟨quiet, own.requests.symm, own.settlements.symm⟩, listening, peer.replies.symm⟩

/-- A central system makes a call and gets no answer in time, while the peer makes a call under the
same id, whose handler takes long, and sends a text that is no frame. -/
def crossing : List Move :=
  [.send V16.heartbeat (.record []), .hear (Codec.json.encode (Pair.question "own#1" "A-1")),
    .takeUp, .handle, .hear "?", .wait 10, .ring Pair.timer,
    .finish (.reply (Pair.verdict "Accepted"))]

/-- The own call misses its answer as it does without the peer, and the call of the peer gets its
reply as it does without the own call. -/
theorem directions_apart_crossing :
    Pair.central.Admits crossing ∧
    Move.withoutPeer .json crossing =
      [.send V16.heartbeat (.record []), .wait 10, .ring Pair.timer] ∧
    (Pair.central.run crossing).log.requests =
      (Pair.central.run (Move.withoutPeer .json crossing)).log.requests ∧
    (Pair.central.run crossing).log.settlements = [(0, 10, .error .timeout)] ∧
    (Pair.central.run crossing).log.replies.map (fun x => (x.1, x.2.1.id)) = [(10, "own#1")] := by
  let question := Pair.question "own#1" "A-1"
  let text := Codec.json.encode question
  let sent := Pair.central.send V16.heartbeat (.record [])
  have read : Codec.json.decode text = .ok question := Frame.json_readBy _ (Pair.plain_question ..)
  have asks : Codec.json.answers text = false := by
    rw [Codec.answers, read]
    rfl
  have fails : Codec.json.answers "?" = false := rfl
  have admitted : Pair.central.Admits crossing := by
    have heard : sent.hear text = sent.takes question := hear_encode (c := sent) read
    have own : ((sent.takes question).takeUp.handle.hear "?").timers.ofSession 0 =
        [Pair.timer] := rfl
    have punctual : ∀ t ∈ ((sent.takes question).takeUp.handle.hear "?").timers.ofSession 0,
        0 + 10 ≤ t.deadline := by
      intro t ht
      rw [own] at ht
      rw [List.mem_singleton.1 ht]
      decide
    show True ∧ True ∧ True ∧ True ∧ True ∧
      ((sent.hear text).takeUp.handle.hear "?").Allows (.wait 10) ∧
      (((sent.hear text).takeUp.handle.hear "?").wait 10).Allows (.ring Pair.timer) ∧ True ∧ True
    rw [heard]
    exact ⟨trivial, trivial, trivial, trivial, trivial, ⟨rfl, punctual⟩,
      ⟨List.mem_cons_self, Nat.le_refl 10⟩, trivial, trivial⟩
  have quiet : Move.withoutPeer .json crossing =
      [.send V16.heartbeat (.record []), .wait 10, .ring Pair.timer] := by
    simp [Move.withoutPeer, crossing, Move.side?, asks, fails, text, question]
  have listening : Move.withoutOwn .json 0 crossing =
      [.hear text, .takeUp, .handle, .hear "?", .wait 10,
        .finish (.reply (Pair.verdict "Accepted"))] := by
    simp [Move.withoutOwn, crossing, Move.side?, Move.clear, asks, fails, text, question]
  have keyed : (Supervisor.create true : Supervisor Expiry).Keyed :=
    ⟨by simp [Supervisor.create], List.nodup_nil⟩
  obtain ⟨⟨-, requests, settlements⟩, -, replies⟩ := directions_apart keyed rfl admitted
  refine ⟨admitted, quiet, requests.symm, settlements.symm.trans ?_,
    (congrArg _ replies).symm.trans ?_⟩
  · rw [quiet]
    rfl
  · have heard : Pair.central.hear text = _ := hear_encode (c := Pair.central) read
    rw [listening]
    show ((((Pair.central.hear text).takeUp.handle.hear "?").wait 10).finish
      (.reply (Pair.verdict "Accepted"))).log.replies.map (fun x => (x.1, x.2.1.id)) = _
    rw [heard]
    rfl

end Chronicle

end ChargeLink

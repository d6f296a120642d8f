import ChargeLink.Proofs.Dispatch.Faults
import ChargeLink.Proofs.Session.Halves
import ChargeLink.Proofs.Session.Moves
import ChargeLink.Proofs.Session.Pair

/-!
# What goes wrong inside stays inside

Two runs of a session are twins if they differ only in what their handlers do
wrong, and each time the codes of the faults are the same. Nobody outside can
tell twins apart: they transmit the same texts, publish the same events and end
their own calls in the same way, at the same times.

* `Twins.alike`: twins differ only in what the session keeps to itself.
* `Chronicle.Reachable.discreet`: the refusals that a session transmits are discreet.
* `handlers_discreet`: nothing of a handler's fault gets out but its code.
-/

namespace ChargeLink

variable {α : Type} {t u : Turn} {before : List Effect}

/-! ## Operations after other effects -/

namespace Turn

/-- The turn after other effects. -/
def behind (t : Turn) (before : List Effect) : Turn :=
  { t with effects := before ++ t.effects }

/-- The turn without the effects so far. -/
def bare (t : Turn) : Turn :=
  { t with effects := [] }

theorem behind_bare (t : Turn) : t.bare.behind t.effects = t := by
  simp [behind, bare]

/-- The operation does the same whatever has been brought about before. -/
def Fresh (f : Turn → α × Turn) : Prop :=
  ∀ t before, f (t.behind before) = ((f t).1, (f t).2.behind before)

theorem withPeer_eq_behind {p : PeerCalls} (same : t.withPeer p [] = t) :
    t.withPeer p before = t.behind before := by
  have after : t.withPeer p before = (t.withPeer p []).behind before := by simp [withPeer, behind]
  rw [after, same]

theorem withOwn_eq_behind {o : OwnCalls} (same : t.withOwn o [] = t) :
    t.withOwn o before = t.behind before := by
  have after : t.withOwn o before = (t.withOwn o []).behind before := by simp [withOwn, behind]
  rw [after, same]

namespace Fresh

/-- What concerns own calls does not look at the effects. -/
theorem of_withPeer {f : Turn → α × Turn} (blind : ∀ (t : Turn) p before,
    f (t.withPeer p before) = ((f t).1, (f t).2.withPeer p before)) : Fresh f := by
  intro t before
  have self : t.withPeer (Half.own.other t) [] = t := by simp [withPeer, Half.own]
  have kept := congrArg Prod.snd (blind t (Half.own.other t) [])
  rw [self] at kept
  rw [← withPeer_eq_behind self, blind, withPeer_eq_behind kept.symm]

/-- Nor does what the peer asks. -/
theorem of_withOwn {f : Turn → α × Turn} (blind : ∀ o before,
    f (t.withOwn o before) = ((f t).1, (f t).2.withOwn o before)) (before : List Effect) :
    f (t.behind before) = ((f t).1, (f t).2.behind before) := by
  have self : t.withOwn (Half.peer.other t) [] = t := by
    have abandoned : t.session.abandoned.map (fun _ => t.session.abandoned.getD 0) =
        t.session.abandoned := by
      cases t.session.abandoned <;> rfl
    simp [withOwn, Half.peer, abandoned]
  have kept := congrArg Prod.snd (blind (Half.peer.other t) [])
  rw [self] at kept
  rw [← withOwn_eq_behind self, blind, withOwn_eq_behind kept.symm]

theorem send (m : Message) (v : Value) : Fresh fun t => ((), (t.send m v).2) :=
  of_withPeer fun t _ _ => congrArg _ (t.send_withPeer m v)

theorem ring (timer : Timer Expiry) : Fresh fun t => t.ring timer :=
  of_withPeer fun t _ _ => t.ring_withPeer timer

theorem pump : Fresh fun t => ((), t.pump) :=
  of_withPeer fun t _ _ => congrArg _ t.pump_withPeer

theorem closing (step : ClosingStep) : Fresh fun t => ((), t.closing step) :=
  of_withPeer fun t _ _ => congrArg _ (t.closing_withPeer step)

theorem takeUp : Fresh fun t => ((), t.takeUp) :=
  fun t => of_withOwn (f := fun t => ((), t.takeUp)) fun _ _ => congrArg _ t.takeUp_withOwn

theorem handle : Fresh fun t => ((), t.handle) :=
  fun t => of_withOwn (f := fun t => ((), t.handle)) fun _ _ => congrArg _ t.handle_withOwn

theorem finish (answer : Answer) : Fresh fun t => ((), t.finish answer) :=
  fun t => of_withOwn (f := fun t => ((), t.finish answer)) fun _ _ =>
    congrArg _ (t.finish_withOwn answer)

theorem hear (text : String) : Fresh fun t => t.hear text := by
  intro t before
  cases answers : t.session.codec.answers text with
  | false => exact of_withOwn (f := fun t => t.hear text) (fun _ _ => t.hear_withOwn answers) before
  | true =>
    obtain ⟨f, id, raw, decodes, answer⟩ := Codec.exists_of_answers answers
    have fresh : Fresh fun t => t.answered id raw :=
      of_withPeer fun t _ _ => t.answered_withPeer id raw
    dsimp only
    rw [hear_answer decodes answer, hear_answer (t := t.behind before) decodes answer]
    exact fresh t before

end Fresh

end Turn

/-! ## What is shown -/

/-- Whether an effect can be noticed by others than the handlers. How a handler has ended, and what
this comes to, is for the session alone. -/
def Effect.isShown : Effect → Bool
  | .returned .. | .dispatched .. => false
  | _ => true

/-- What others than the handlers can notice, with the times. -/
def Log.shown (l : Log) : Log :=
  l.filter fun x => x.2.isShown

theorem Log.shown_append (l l' : Log) : shown (l ++ l') = shown l ++ shown l' :=
  List.filter_append ..

/-- What is transmitted is shown. -/
theorem Log.texts_shown (l : Log) : l.shown.texts = l.texts := by
  induction l with
  | nil => rfl
  | cons x l ih =>
    obtain ⟨time, e⟩ := x
    have first : Log.shown [(time, e)] ++ Log.shown l = Log.shown ((time, e) :: l) :=
      (Log.shown_append [(time, e)] l).symm
    simp only [← first, Log.view_append, ih, Log.view_cons]
    cases e <;> rfl

/-- Two turns differ only in effects that are not shown. -/
structure Turn.Alike (t u : Turn) : Prop where
  bare : t.bare = u.bare
  effects : t.effects.filter Effect.isShown = u.effects.filter Effect.isShown

/-- An operation keeps two turns alike. -/
theorem Turn.Fresh.alike {f : Turn → α × Turn} (fresh : Turn.Fresh f) (h : t.Alike u) :
    (f t).1 = (f u).1 ∧ (f t).2.Alike (f u).2 := by
  have left := fresh t.bare t.effects
  have right := fresh u.bare u.effects
  rw [Turn.behind_bare] at left right
  rw [left, right, h.bare]
  refine ⟨rfl, rfl, ?_⟩
  simp [Turn.behind, List.filter_append, h.effects]

namespace Chronicle

variable {c d : Chronicle}

/-- Two chronicles differ only in what is not shown. -/
structure Alike (c d : Chronicle) : Prop where
  turn : c.turn.Alike d.turn
  owed : c.owed = d.owed
  asked : c.asked = d.asked
  heard : c.heard = d.heard
  past : c.past.shown = d.past.shown

namespace Alike

theorem refl (c : Chronicle) : Alike c c :=
  ⟨⟨rfl, rfl⟩, rfl, rfl, rfl, rfl⟩

theorem session (h : Alike c d) : c.session = d.session :=
  congrArg (·.session) h.turn.bare

theorem timers (h : Alike c d) : c.timers = d.timers :=
  congrArg (·.timers) h.turn.bare

theorem now (h : Alike c d) : c.now = d.now :=
  congrArg (·.now) h.turn.bare

theorem log (h : Alike c d) : c.log.shown = d.log.shown := by
  have recent : ∀ (es : List Effect) (time : ℕ), Log.shown (es.map fun e => (time, e)) =
      (es.filter Effect.isShown).map fun e => (time, e) := by
    intro es time
    rw [Log.shown, List.filter_map]
    rfl
  rw [Chronicle.log, Chronicle.log, Log.shown_append, Log.shown_append, recent, recent, h.past,
    h.turn.effects, h.now]

theorem allows {m : Move} (h : Alike c d) (allowed : c.Allows m) : d.Allows m := by
  cases m with
  | ring | share =>
    simpa only [Allows, h.session, h.timers, h.now] using allowed
  | wait => simpa only [Allows, h.session, h.timers, h.now, h.owed] using allowed
  | pump =>
    rw [Allows] at allowed ⊢
    rwa [← h.owed]
  | _ => trivial

/-- A move keeps two chronicles alike. -/
theorem after (h : Alike c d) (m : Move) : Alike (c.after m) (d.after m) := by
  obtain ⟨turn, owed, asked, heard, past⟩ := h
  cases m with
  | send m v =>
    exact ⟨((Turn.Fresh.send m v).alike turn).2, owed, congrArg (· ++ [(m, v)]) asked, heard, past⟩
  | hear text =>
    obtain ⟨left, turn⟩ := (Turn.Fresh.hear text).alike turn
    refine ⟨turn, ?_, asked, congrArg (· ++ [text]) heard, past⟩
    show c.owed + (c.turn.hear text).1.toNat = d.owed + (d.turn.hear text).1.toNat
    rw [owed, left]
  | ring timer =>
    obtain ⟨left, turn⟩ := (Turn.Fresh.ring timer).alike turn
    refine ⟨turn, ?_, asked, heard, past⟩
    show c.owed + (c.turn.ring timer).1.toNat = d.owed + (d.turn.ring timer).1.toNat
    rw [owed, left]
  | pump => exact ⟨(Turn.Fresh.pump.alike turn).2, congrArg (· - 1) owed, asked, heard, past⟩
  | takeUp => exact ⟨(Turn.Fresh.takeUp.alike turn).2, owed, asked, heard, past⟩
  | handle => exact ⟨(Turn.Fresh.handle.alike turn).2, owed, asked, heard, past⟩
  | finish answer => exact ⟨((Turn.Fresh.finish answer).alike turn).2, owed, asked, heard, past⟩
  | closing step =>
    exact ⟨((Turn.Fresh.closing step).alike turn).2, owed, asked, heard, past⟩
  | unlink => exact ⟨⟨congrArg Turn.unlink turn.bare, turn.effects⟩, owed, asked, heard, past⟩
  | share timers =>
    exact ⟨⟨congrArg (fun t : Turn => { t with timers }) turn.bare, turn.effects⟩, owed, asked,
      heard, past⟩
  | wait ms =>
    refine ⟨⟨congrArg (fun t : Turn => { t with now := t.now + ms }) turn.bare, rfl⟩, owed, asked,
      heard, ?_⟩
    exact Alike.log ⟨turn, owed, asked, heard, past⟩

/-- Two ends of a handler with the same code keep two chronicles alike. -/
theorem finish {call : InboundCall} {h : Handler} {a b : Answer} {code : ErrorCode}
    (alike : Alike c d) (running : c.session.running = some (call, h))
    (left : a.Faults h.message code) (right : b.Faults h.message code) :
    Alike (c.finish a) (d.finish b) := by
  have running' : d.session.running = some (call, h) := alike.session ▸ running
  obtain ⟨turn, owed, asked, heard, past⟩ := alike
  refine ⟨?_, owed, asked, heard, past⟩
  -- both answer the call with the frame that the code decides
  have replies : c.session.replies call (Registry.conclude h.message a) =
      d.session.replies call (Registry.conclude h.message b) := by
    have same : c.session = d.session := congrArg (·.session) turn.bare
    rw [same]
    simp only [Session.replies, Registry.reply_of_faults left, Registry.reply_of_faults right]
  rw [Chronicle.finish, Chronicle.finish, Turn.finish_running running, Turn.finish_running running']
  refine ⟨?_, ?_⟩
  · exact congrArg (fun t : Turn => { t with session := { t.session with running := none } })
      turn.bare
  · show (c.turn.effects ++ _).filter _ = (d.turn.effects ++ _).filter _
    rw [replies, List.filter_append, List.filter_append, turn.effects]
    rfl

end Alike

/-- Two runs of a session in which the same happens, except that where a handler of the one does
something wrong, that of the other may do something else wrong that has the same code. -/
inductive Twins : Chronicle → Chronicle → Prop
  | start {c : Chronicle} (reachable : c.Reachable) : Twins c c
  | move {c d : Chronicle} (twins : Twins c d) (m : Move) (allowed : c.Allows m) :
      Twins (c.after m) (d.after m)
  | fault {c d : Chronicle} {call h a b code} (twins : Twins c d)
      (running : c.session.running = some (call, h))
      (left : Answer.Faults h.message a code) (right : Answer.Faults h.message b code) :
      Twins (c.finish a) (d.finish b)

/-- **Twins differ only in what is not shown.** -/
theorem Twins.alike (h : Twins c d) : Alike c d := by
  induction h with
  | start => exact .refl _
  | move _ m _ ih => exact ih.after m
  | fault _ running left right ih => exact ih.finish running left right

/-- Both of them are runs of the session. -/
theorem Twins.reachable (h : Twins c d) : c.Reachable ∧ d.Reachable := by
  induction h with
  | start reachable => exact ⟨reachable, reachable⟩
  | move twins m allowed ih =>
    exact ⟨ih.1.step allowed.step, ih.2.step (twins.alike.allows allowed).step⟩
  | fault _ _ _ _ ih => exact ⟨ih.1.step (.finish _), ih.2.step (.finish _)⟩

/-- **The refusals that a session transmits are discreet.** -/
theorem Reachable.discreet (h : c.Reachable) : ∃ fs : List Frame,
    c.log.texts = fs.map c.session.codec.encode ∧
      ∀ f ∈ fs, f.Discreet c.session.registry (c.arrivals.map InboundCall.payload) := by
  obtain ⟨fs, texts, -, justified⟩ := (Wired.of_reachable h.desk).frames
  have served := Served.of_reachable h.desk
  refine ⟨fs, texts, fun f hf => ?_⟩
  cases justified f hf with
  | call =>
    intro _ _ _ _ other
    cases other
  | @reply call result dispatched =>
    have done : call ∈ c.log.dispatches.map Prod.fst := List.mem_map.2 ⟨_, dispatched, rfl⟩
    have arrived : call ∈ c.arrivals := served.arrivals.subset (List.mem_append_left _ done)
    rcases served.outcome call result dispatched with
      ⟨fault, away, rfl⟩ | ⟨handler, request, answer, -, -, rfl⟩
    · exact .away away (List.mem_map_of_mem arrived)
    · exact .concluded handler.message answer
  | refusal => exact .bare

end Chronicle

/-- **Nothing of a handler's fault gets out but its code.** A handler ends with a confirmation that
is sent, or it faults with a code, and then the code decides the frame that answers the call. Of
every refusal that a session transmits, the description follows from the code, and the details are
places in requests, names of rules and parts of what the peer has sent, and nothing else. Two runs
that differ only in faults of handlers with the same codes show the same, and transmit the same
texts. -/
theorem handlers_discreet :
    (∀ (m : Message) (a : Answer),
      (∃ payload, Registry.conclude m a = .ok payload) ∨ ∃ code, a.Faults m code) ∧
    (∀ (r r' : Registry) (n n' : ℕ) (id action : String) (payload : Json) (h h' : Handler)
      (request request' : Value) (code : ErrorCode), r.version = r'.version →
      r.Admits action payload h request → r'.Admits action payload h' request' →
      (h.react n request).answer.Faults h.message code →
      (h'.react n' request').answer.Faults h'.message code →
      r.dispatch n id action payload = .refusal id code r.version .empty ∧
        r.dispatch n id action payload = r'.dispatch n' id action payload) ∧
    (∀ c : Chronicle, c.Reachable → ∃ fs : List Frame,
      c.log.texts = fs.map c.session.codec.encode ∧
        ∀ f ∈ fs, f.Discreet c.session.registry (c.arrivals.map InboundCall.payload)) ∧
    ∀ c d : Chronicle, c.Twins d →
      c.Reachable ∧ d.Reachable ∧ c.log.texts = d.log.texts ∧ c.log.shown = d.log.shown := by
  refine ⟨Answer.confirms_or_faults, ?_, fun c h => h.discreet, fun c d twins => ?_⟩
  · intro r r' n n' id action payload h h' request request' code version admits admits' faults
      faults'
    have frame : r.dispatch n id action payload = .refusal id code r.version .empty :=
      Registry.dispatch_of_faults admits faults
    have frame' : r'.dispatch n' id action payload = .refusal id code r'.version .empty :=
      Registry.dispatch_of_faults admits' faults'
    exact ⟨frame, by rw [frame, frame', version]⟩
  · have shown := twins.alike.log
    refine ⟨twins.reachable.1, twins.reachable.2, ?_, shown⟩
    rw [← c.log.texts_shown, ← d.log.texts_shown, shown]

namespace Pair

/-- A registry with one handler, which is asked about cards and always ends in the same way. -/
def alwaysEnding (a : Answer) : Registry :=
  ⟨.v16, .centralSystem, [⟨V16.authorize, fun _ _ => ⟨0, a⟩⟩], List.pairwise_singleton ..⟩

/-- An acceptance that names a group of cards by a text that is too long. -/
def overlong : Value :=
  .record [("idTagInfo", .record [("status", .choice "Accepted"),
    ("parentIdTag", .text "a name of more than twenty characters")])]

/-- The central system looks at a card. -/
def considering : Chronicle :=
  (central.takes (question "own#1" "A-1")).serve

/-- A database that is down looks like a panic, and so does a confirmation that breaks a rule. -/
theorem discreet_considering :
    (alwaysEnding .panic).dispatch 0 "1" "Authorize" (card "A-1").encode =
      .refusal "1" .internalError .v16 .empty ∧
    (alwaysEnding .panic).dispatch 0 "1" "Authorize" (card "A-1").encode =
      (alwaysEnding (.reply overlong)).dispatch 7 "1" "Authorize" (card "A-1").encode ∧
    (considering.finish .panic).log.texts =
      (considering.finish (.fail (.internal "no database"))).log.texts ∧
    ∃ fs : List Frame, (considering.finish .panic).log.texts = fs.map Frame.text ∧
      ∀ f ∈ fs, f.Discreet considering.session.registry [(card "A-1").encode] := by
  have opened : central.Reachable :=
    .opened _ _ _ _ _ _ _ _ ⟨by simp [Supervisor.create], List.nodup_nil⟩ rfl
  have reachable : considering.Reachable :=
    (opened.step (.takes (Frame.json_readBy _ (plain_question ..)))).steps
      (Chronicle.steps_serve _)
  have decodes : V16.authorize.request.decode (card "A-1").encode = .ok (card "A-1") :=
    PayloadType.decode_encode (by decide) (typed_card "A-1")
  have valid : V16.authorize.request.validate (card "A-1") = none := by decide
  have admits : ∀ a, (alwaysEnding a).Admits "Authorize" (card "A-1").encode
      ⟨V16.authorize, fun _ _ => ⟨0, a⟩⟩ (card "A-1") :=
    fun a => ⟨List.mem_cons_self, rfl, decodes, valid⟩
  have breaks : (V16.authorize.confirmation.validate overlong).isSome = true := by decide
  obtain ⟨fault, breaks⟩ := Option.isSome_iff_exists.1 breaks
  obtain ⟨-, frames, discreet, twins⟩ := handlers_discreet
  obtain ⟨frame, same⟩ := frames (alwaysEnding .panic) (alwaysEnding (.reply overlong)) 0 7 "1" _ _
    _ _ _ _ .internalError rfl (admits _) (admits _) .panic (.invalid breaks)
  have running : considering.session.running =
      some (⟨"own#1", "Authorize", (card "A-1").encode⟩, gate) := rfl
  exact ⟨frame, same, (twins _ _ (.fault (.start reachable) running .panic (.internal _))).2.2.1,
    discreet _ (reachable.step (.finish _))⟩

end Pair

end ChargeLink

import ChargeLink.Proofs.Session.Wire

/-!
# Answers that match no call

An answer is published as unmatched if no outstanding call has its id. A call of
that id has an outcome by then, and unless it was given up, that outcome is what
an answer brought; so an id that was answered for the first time is that of a
call that was given up.

* `Accounts.fates`: how calls that were transmitted end.
* `Chronicle.Step.puzzled`: a step publishes nothing as unmatched, or it is
  the hearing of an answer that no call waits for.
* `Chronicle.Puzzled.gaveUp`: the call of such an answer, if it is the first, was given up.
-/

namespace ChargeLink

variable {c d : Chronicle}

/-! ## Ids of answers -/

/-- The id that an event says no call waits for. -/
def Effect.unmatched? : Effect → Option String
  | .published ⟨_, .unmatched id⟩ => some id
  | _ => none

/-- The ids that were published as unmatched. -/
abbrev Log.unmatched (l : Log) : List String :=
  l.view fun x => x.2.unmatched?

/-- The id of the call that a text answers. -/
def Codec.answerId? (codec : Codec) (text : String) : Option String :=
  match codec.decode text with
  | .ok f => f.answer?.map Prod.fst
  | .error _ => none

theorem Codec.answerId?_of_answer {codec : Codec} {text id : String} {f : Frame} {raw : RawOutcome}
    (decodes : codec.decode text = .ok f) (answers : f.answer? = some (id, raw)) :
    codec.answerId? text = some id := by
  rw [Codec.answerId?, decodes]
  simp [answers]

/-- The ids of the calls whose answers were heard. -/
def Chronicle.answerIds (c : Chronicle) : List String :=
  c.heard.filterMap c.session.codec.answerId?

theorem Grows.answerIds (h : Grows c d) : c.answerIds <+: d.answerIds := by
  rw [Chronicle.answerIds, Chronicle.answerIds, h.codec]
  exact h.heard.filterMap _

/-! ## How calls end -/

/-- A call was given up: its deadline has passed, or the session was closed. -/
def CallFailure.GivesUp (f : CallFailure) : Prop :=
  f = .timeout ∨ f = .closing

/-- A call of the id has been transmitted, and was given up. -/
def Log.GaveUp (l : Log) (id : String) : Prop :=
  ∃ k u f, (k, id) ∈ l.calls ∧ (k, u, .error f) ∈ l.settlements ∧ f.GivesUp

/-- Calls that were transmitted are given up or end with an answer. -/
def Fates (c : Chronicle) : Prop :=
  ∀ k id u o, (k, id) ∈ c.log.calls → (k, u, o) ∈ c.log.settlements →
    (∃ f, o = .error f ∧ f.GivesUp) ∨ id ∈ c.answerIds

/-- New outcomes are those of calls that were not transmitted, or tell their fate. -/
theorem Fates.keep (h : Fates c) (grows : Grows c d) (calls : d.log.calls = c.log.calls)
    (os : List (ℕ × ℕ × Except CallFailure Value))
    (settlements : d.log.settlements = c.log.settlements ++ os)
    (ends : ∀ x ∈ os, ∀ id, (x.1, id) ∈ c.log.calls →
      (∃ f, x.2.2 = .error f ∧ f.GivesUp) ∨ id ∈ d.answerIds) : Fates d := by
  intro k id u o called settled
  rw [calls] at called
  rw [settlements] at settled
  rcases List.mem_append.1 settled with old | new
  · exact (h k id u o called old).imp_right fun heard => grows.answerIds.subset heard
  · exact ends _ new id called

/-- One send gets its outcome. -/
theorem Fates.settle (k : ℕ) (o : Except CallFailure Value) (h : Fates c) (grows : Grows c d)
    (calls : d.log.calls = c.log.calls)
    (settlements : d.log.settlements = c.log.settlements ++ [(k, c.now, o)])
    (ends : ∀ id, (k, id) ∈ c.log.calls →
      (∃ f, o = .error f ∧ f.GivesUp) ∨ id ∈ d.answerIds) : Fates d := by
  refine h.keep grows calls _ settlements fun x hx id called => ?_
  rw [List.mem_singleton.1 hx] at called ⊢
  exact ends id called

namespace Accounts

theorem fates_own {d e : Desk} (h : Fates d.chronicle) (reachable : d.Reachable) (step : Own d e) :
    Fates e.chronicle := by
  have grows := Grows.own step
  have accounts : Accounts d := .of_reachable reachable
  cases step with
  | @turnAway c m v f why =>
    refine h.settle c.session.issued (.error f) grows ?_ ?_ fun id called =>
      absurd (transmitted_lt reachable called) (Nat.lt_irrefl _)
    · simp [Chronicle.log_becomes]
    · simp [Chronicle.log_becomes]
  | enqueue | take | takeNext | stale | handedOn | beginClose | endClose =>
    refine h.keep grows ?_ [] ?_ (by simp) <;> simp [Chronicle.log_becomes]
  | @untimed c q loop =>
    refine h.settle q.owner.ticket (.error (.transport noLoopMessage)) grows ?_ ?_
      fun id called => absurd (List.mem_map.2 ⟨_, called, rfl⟩) (hand_untransmitted reachable)
    · simp [Chronicle.log_becomes]
    · simp [Chronicle.log_becomes]
  | @miss c q loop unlinked =>
    refine h.settle q.owner.ticket (.error (.transport "outbound channel closed")) grows ?_ ?_
      fun id called => absurd (List.mem_map.2 ⟨_, called, rfl⟩) (hand_untransmitted reachable)
    · simp [Chronicle.log_becomes]
    · simp [Chronicle.log_becomes]
  | @transmit c q loop linked =>
    -- what is transmitted has no outcome yet
    intro k id u o called settled
    simp only [Chronicle.log_becomes, Log.view_append, Log.view_cons, Log.view_nil, List.map_cons,
      List.map_nil, Option.toList_none, Option.toList_some, List.nil_append, List.append_nil,
      List.mem_append, List.mem_singleton] at called settled
    rcases called with called | new
    · exact h k id u o called settled
    · cases new
      exact absurd (Log.mem_settled settled) accounts.hand_apart.1
  | @answer c text f id raw call decodes answers slot same =>
    refine h.settle call.owner.ticket (call.owner.outcome raw) grows ?_ ?_ fun id' called => .inr ?_
    · simp [Chronicle.log_becomes]
    · simp [Chronicle.log_becomes]
    · -- the call that ends is the one that was transmitted under the id of the answer
      have held := ((Wired.of_reachable reachable).held call slot).1
      have own := List.inj_on_of_nodup_map (calls_nodup reachable) called held rfl
      have id : id' = id := (congrArg Prod.snd own).trans same
      rw [id, Chronicle.answerIds]
      refine List.mem_filterMap.2 ⟨text, ?_, Codec.answerId?_of_answer decodes answers⟩
      exact List.mem_append_right _ List.mem_cons_self
  | @lapse c timer call armed due slot same =>
    refine h.settle call.owner.ticket (.error .timeout) grows ?_ ?_
      fun id called => .inl ⟨.timeout, rfl, .inl rfl⟩
    · simp [Chronicle.log_becomes]
    · simp [Chronicle.log_becomes]
  | @abandon c =>
    refine h.keep grows ?_
      ((c.session.outstanding ++ c.session.queued).map (·, c.now, .error .closing)) ?_ ?_
    · simp [Chronicle.log_becomes]
    · simp [Chronicle.log_becomes]
    · intro x hx id called
      obtain ⟨k, -, rfl⟩ := List.mem_map.1 hx
      exact .inl ⟨.closing, rfl, .inr rfl⟩

/-- **A call that was transmitted is given up or ends with an answer.** -/
theorem fates {d : Desk} (h : d.Reachable) : Fates d.chronicle := by
  induction h with
  | opened =>
    intro k id u o called
    cases called
  | small reachable step ih =>
    have grows := Grows.small step
    cases step with
    | own step => exact fates_own ih reachable step
    | inbound step =>
      have same := step.same
      exact ih.keep grows same.calls [] (by rw [same.settlements, List.append_nil]) (by simp)
    | unlink => exact ih.keep grows rfl [] (List.append_nil _).symm (by simp)
  | ambient _ step ih =>
    refine ih.keep (.ambient step) (by rw [step.log]) [] ?_ (by simp)
    rw [step.log, List.append_nil]

end Accounts

/-! ## What is published -/

/-- Own calls publish nothing as unmatched. -/
theorem Own.unmatched_eq {d e : Desk} (h : Own d e) :
    e.chronicle.log.unmatched = d.chronicle.log.unmatched := by
  cases h <;> simp [Chronicle.log_becomes, Session.event, Log.unmatched, Effect.unmatched?]

theorem Owns.unmatched_eq {d e : Desk} (h : Owns d e) :
    e.chronicle.log.unmatched = d.chronicle.log.unmatched := by
  induction h with
  | refl => rfl
  | tail _ step ih => exact step.1.unmatched_eq.trans ih

/-- From `c` to `d`, an answer is heard that no outstanding call waits for. -/
structure Chronicle.Puzzled (c d : Chronicle) (text id : String) : Prop where
  answers : c.session.codec.answerId? text = some id
  other : c.session.slot.outstandingId ≠ some id
  heard : d.heard = c.heard ++ [text]
  log : d.log = c.log ++ [(c.now, .published (c.session.event (.unmatched id)))]

theorem Chronicle.Puzzled.answerIds {text id : String} (h : c.Puzzled d text id)
    (codec : d.session.codec = c.session.codec) : d.answerIds = c.answerIds ++ [id] := by
  rw [Chronicle.answerIds, h.heard, List.filterMap_append, codec, Chronicle.answerIds]
  simp [h.answers]

/-- The peer asks for nothing to be published as unmatched, but an answer may be it. -/
theorem Inbound.puzzled (h : Inbound c d) :
    d.log.unmatched = c.log.unmatched ∨ ∃ text id, c.Puzzled d text id := by
  cases h with
  | @unmatched text f id raw decodes answers other =>
    refine .inr ⟨text, id, Codec.answerId?_of_answer decodes answers, other, rfl, ?_⟩
    rw [Chronicle.log_hears, Chronicle.log_becomes]
    rfl
  | _ =>
    left
    simp [Chronicle.log_becomes, Log.unmatched, Effect.unmatched?]

/-- **Only an answer that no outstanding call waits for is published as unmatched.** -/
theorem Chronicle.Step.puzzled (h : Step c d) :
    d.log.unmatched = c.log.unmatched ∨ ∃ text id, c.Puzzled d text id := by
  cases h with
  | send m v => exact .inl (send_owns m v).unmatched_eq
  | hear text =>
    cases answers : c.session.codec.answers text with
    | false => exact (hear_inbound answers).puzzled
    | true =>
      rcases hear_owns answers with owns | ⟨-, inbound, -⟩
      · exact .inl owns.unmatched_eq
      · exact inbound.puzzled
  | ring timer armed due => exact .inl (ring_owns timer armed due).unmatched_eq
  | pump owed => exact .inl (pump_owns owed).unmatched_eq
  | takeUp =>
    rcases c.takeUp_inbound with same | inbound
    · exact .inl (by rw [same])
    · exact inbound.puzzled
  | handle =>
    rcases c.handle_inbound with same | inbound
    · exact .inl (by rw [same])
    · exact inbound.puzzled
  | finish answer =>
    rcases c.finish_inbound answer with same | inbound
    · exact .inl (by rw [same])
    · exact inbound.puzzled
  | unlink => exact .inl rfl
  | closing step =>
    rcases c.closing_own step with same | own
    · exact .inl (by rw [same])
    · exact .inl own.unmatched_eq
  | share timers keyed loop own => exact .inl rfl
  | wait ms handedOn punctual => exact .inl (by rw [(Ambient.wait ms handedOn punctual).log])

/-- An answer that no call waits for, but whose call was transmitted, comes after the call was given
up, if it is the first of its id. -/
theorem Chronicle.Puzzled.gaveUp {text id : String} (h : c.Puzzled d text id)
    (reachable : c.Reachable) (called : id ∈ c.log.calls.map Prod.snd) (first : id ∉ c.answerIds) :
    c.log.GaveUp id := by
  obtain ⟨⟨k, id⟩, mine, rfl⟩ := List.mem_map.1 called
  -- the call does not hold the slot, so it has an outcome
  have settled : k ∈ c.log.settled := by
    by_contra unsettled
    have waits : (k, id) ∈ c.session.held := by
      have held : c.log.unanswered = c.session.held := Accounts.unanswered reachable.desk
      rw [← held]
      exact List.mem_filter.2 ⟨mine, by simpa using unsettled⟩
    obtain ⟨call, hc, same⟩ := List.mem_map.1 waits
    refine h.other ?_
    rw [PendingTable.outstandingId, Option.mem_toList.1 hc]
    exact congrArg (some ·.2) same
  rw [← Log.map_settlements] at settled
  obtain ⟨⟨k, u, o⟩, outcome, rfl⟩ := List.mem_map.1 settled
  rcases Accounts.fates reachable.desk k id u o mine outcome with ⟨f, rfl, givesUp⟩ | answered
  · exact ⟨k, u, f, mine, outcome, givesUp⟩
  · exact absurd answered first

/-- Of the answers that were heard, some were published as unmatched, each of them once. -/
theorem Chronicle.Reachable.unmatched_sublist (h : c.Reachable) :
    c.log.unmatched.Sublist c.answerIds := by
  induction h with
  | opened => exact .slnil
  | @step c d reachable step ih =>
    have grows := step.grows
    rcases step.puzzled with same | ⟨text, id, puzzled⟩
    · rw [same]
      exact ih.trans grows.answerIds.sublist
    · rw [puzzled.answerIds grows.codec, puzzled.log, Log.unmatched, Log.view_append]
      exact ih.append (.refl _)

/-! ## Belated answers -/

/-- Whatever was published as unmatched, its call had been given up before. -/
def Log.Belated (l : Log) : Prop :=
  ∀ i x id, l[i]? = some x → x.2.unmatched? = some id → Log.GaveUp (l.take i) id

namespace Log.Belated

variable {l later : Log} {time : ℕ} {e : Effect} {id : String}

/-- A call whose id was published as unmatched was given up. -/
theorem mem (h : l.Belated) (unmatched : id ∈ l.unmatched) : l.GaveUp id := by
  obtain ⟨x, hx, published⟩ := List.mem_filterMap.1 unmatched
  obtain ⟨i, found⟩ := List.mem_iff_getElem?.1 hx
  obtain ⟨k, u, f, called, settled, givesUp⟩ := h i x id found published
  have before : l.take i <+: l := List.take_prefix i l
  exact ⟨k, u, f, (before.filterMap _).subset called, (before.filterMap _).subset settled, givesUp⟩

/-- Nothing more is published as unmatched. -/
theorem append (h : l.Belated) (none : later.unmatched = []) : (l ++ later).Belated := by
  intro i x id found unmatched
  rcases Nat.lt_or_ge i l.length with old | new
  · rw [List.getElem?_append_left old] at found
    rw [List.take_append_of_le_length (Nat.le_of_lt old)]
    exact h i x id found unmatched
  · rw [List.getElem?_append_right new] at found
    have mem : id ∈ later.unmatched :=
      List.mem_filterMap.2 ⟨x, List.mem_of_getElem? found, unmatched⟩
    rw [none] at mem
    cases mem

/-- The answer to a call that was given up is published as unmatched. -/
theorem concat (h : l.Belated) (unmatched : e.unmatched? = some id) (gaveUp : l.GaveUp id) :
    (l ++ [(time, e)]).Belated := by
  intro i x id' found unmatched'
  rcases Nat.lt_or_ge i l.length with old | new
  · rw [List.getElem?_append_left old] at found
    rw [List.take_append_of_le_length (Nat.le_of_lt old)]
    exact h i x id' found unmatched'
  · have last : i = l.length := by
      have := (List.getElem?_eq_some_iff.1 found).1
      rw [List.length_append, List.length_singleton] at this
      omega
    subst last
    rw [List.getElem?_concat_length] at found
    cases found
    cases unmatched.symm.trans unmatched'
    rwa [List.take_left]

end Log.Belated

/-- A session that has heard nothing has published nothing as unmatched. -/
theorem Chronicle.Reachable.belated_of_silent (h : c.Reachable) (silent : c.heard = []) :
    c.log.Belated := by
  have none : c.log.unmatched = [] := by
    have answers := h.unmatched_sublist
    rwa [answerIds, silent, List.filterMap_nil, List.sublist_nil] at answers
  intro i x id found published
  have mem : id ∈ c.log.unmatched :=
    List.mem_filterMap.2 ⟨x, List.mem_of_getElem? found, published⟩
  rw [none] at mem
  cases mem

end ChargeLink

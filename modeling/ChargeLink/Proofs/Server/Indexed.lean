import ChargeLink.Proofs.Server.Annals
import ChargeLink.Proofs.Session.Forfeits

/-!
# What the index holds

At every moment of a run the index holds what was registered last under each id and
has neither been unregistered nor cleared since. A session that it does not hold is
over with everything settled, or somebody is closing it or is about to, or it has
come between the listing and the clearing of all sessions and was missed.

* `Annals.Reachable.sessions_indexed`: this, and what closing all sessions adds up to.
* `Annals.registered_astray`: a session may be missed, and a caller may pause for a while after its
  session has been closed.
-/

namespace ChargeLink

namespace Annals

variable {a : Annals} {s : Server} {n : ℕ}

/-- A connection that ends leaves all other sessions in the index. -/
theorem Sound.get?_retire (h : Sound a) {id : String} {k : ℕ}
    (found : a.server.hub.index.get? id = some k) (other : k ≠ n) :
    (a.server.retire n).hub.index.get? id = some k := by
  have distinct := h.hub.tells.distinct
  rcases a.server.retire_cases n with ⟨t, l, station, link, ended⟩ | same
  · rw [Server.retire_of_ended station link ended]
    refine (SessionIndex.get?_eq_some_iff (SessionIndex.nodup_unregister distinct)).2 ?_
    refine (SessionIndex.mem_unregister distinct).2
      ⟨(SessionIndex.get?_eq_some_iff distinct).1 found, fun same => ?_⟩
    exact other (Prod.mk.inj same).2
  · rw [same]
    exact found

/-- If all connections have ended, nothing is left in the index, and no session is open. -/
theorem Sound.all_ended (h : Sound a)
    (ended : ∀ n < a.server.hub.stations.length, ∃ id, .unregistered id n ∈ a.record) :
    a.server.hub.index.entries = [] ∧
      ∀ t ∈ a.server.hub.stations, t.session.phase ≠ .opened := by
  -- what has ended is neither open nor in the index
  have ends : ∀ n t, a.server.hub.station? n = some t → t.session.phase ≠ .opened ∧
      (t.session.chargePointId, n) ∉ a.server.hub.index.entries := by
    intro n t found
    obtain ⟨id, done⟩ := ended n (List.getElem?_eq_some_iff.1 found).1
    obtain ⟨t', found', gone⟩ := h.hub.ended id n done
    rw [found] at found'
    cases found'
    exact gone
  constructor
  · refine List.eq_nil_iff_forall_not_mem.2 ?_
    rintro ⟨id, n⟩ mem
    obtain ⟨t, found, rfl⟩ := h.hub.entries id n mem
    exact (ends n t found).2 mem
  · intro t mem
    obtain ⟨n, found⟩ := List.mem_iff_getElem?.1 mem
    exact (ends n t found).1

/-- **The index at every moment.** It holds one session for each id at most: the one that was
registered last under it, and has neither been unregistered nor cleared since; and it holds it under
the session's own id. A connection that ends takes no other session off the index. The calls that
wait in a session are those without an outcome; a session that is not in the index is closed and
everything is settled, or it is being closed, or it is loose: somebody is to close it and has not
begun, or it was missed. Whoever closes a session that was found open counts the calls that fail
because of it, nobody else closes that session, and whoever closes all sessions adds up what that
costs. Once all connections have ended, the index is empty and no session is open, whenever it was
registered. -/
theorem Reachable.sessions_indexed (h : a.Reachable) :
    a.server.hub.index.ids.Nodup ∧
    (∀ id n, a.server.hub.index.get? id = some n ↔ IndexEvent.Stands a.record id n) ∧
    (∀ id n, a.server.hub.index.get? id = some n → ∃ t, a.server.hub.station? n = some t ∧
      t.session.number = n ∧ t.session.chargePointId = id) ∧
    (∀ id n k, a.server.hub.index.get? id = some k → k ≠ n →
      (a.server.retire n).hub.index.get? id = some k) ∧
    (∀ n t, a.server.hub.station? n = some t → ∃ taken m, (t.restore taken).Follows m ∧
      (t.session.waiting.map Owner.ticket).Nodup ∧
      (∀ k, k ∈ t.session.waiting.map Owner.ticket ↔ m.Unsettled k) ∧
      (a.server.hub.index.get? t.session.chargePointId ≠ some n →
        t.session.phase = .closed ∧ (t.restore taken).Settled ∨ t.session.phase = .closing ∨
          a.Loose n) ∧
      ∀ c ∈ a.closures, c.session = n →
        t.session.phase = .closed ∧ c.abandoned = m.log.forfeited.length) ∧
    ((a.closures.map Closure.session).Nodup ∧
      ∀ k w, a.sweeps[k]? = some w → w.abandoned = Errand.cost k a.closures) ∧
    ((∀ n < a.server.hub.stations.length, ∃ id, .unregistered id n ∈ a.record) →
      a.server.hub.index.entries = [] ∧
        ∀ t ∈ a.server.hub.stations, t.session.phase ≠ .opened) := by
  have sound := h.sound
  have looked : ∀ {id n}, a.server.hub.index.get? id = some n ↔
      (id, n) ∈ a.server.hub.index.entries :=
    SessionIndex.get?_eq_some_iff sound.hub.tells.distinct
  refine ⟨sound.hub.tells.distinct, fun _ _ => sound.hub.tells.get?_eq_some_iff, ?_,
    fun id n k => sound.get?_retire, ?_, ⟨(List.nodup_append.1 sound.booked.once).2.1,
      sound.tallied.sums⟩, sound.all_ended⟩
  · intro id n found
    obtain ⟨t, there, own⟩ := sound.hub.entries id n (looked.1 found)
    exact ⟨t, there, sound.hub.numbered n t there, own⟩
  · intro n t found
    obtain ⟨taken, kept⟩ := sound.hub.kept n t found
    obtain ⟨m, follows, nodup, waiting⟩ := kept.waiting
    refine ⟨taken, m, follows, nodup, waiting, fun gone => ?_, ?_⟩
    · cases phase : t.session.phase with
      | opened =>
        have inside := (sound.hub.registered n t found phase).resolve_left fun mem =>
          gone (looked.2 mem)
        exact .inr (.inr inside)
      | closing => exact .inr (.inl rfl)
      | closed => exact .inl ⟨rfl, kept.reachable.settled kept.alive phase⟩
    · rintro c mem rfl
      obtain ⟨t', found', closed, counted⟩ := sound.booked.counted c mem
      rw [found] at found'
      cases found'
      exact ⟨closed, counted.symm.trans follows.forfeited.symm⟩

/-! ## Runs -/

/-- A server whose sessions have ten milliseconds for an answer. -/
def quiet : Server :=
  .create ⟨10, .queue, 1, .standard⟩

/-- A server whose sessions take one call at a time. -/
def strict : Server :=
  .create ⟨10, .reject, 1, .standard⟩

/-- A registry without handlers. -/
def central : Registry :=
  .empty .v16 .centralSystem

/-- A call is sent to the charge point of a session. -/
def asking (n number : ℕ) (m : Message) (v : Value) (retry : Bool) (s : Server) : Server :=
  (s.onConnection n fun c => ((), c.onStation fun t => t.issue number m v retry)).2

/-- A caller asks for a sign of life. -/
def pinging (n : ℕ) (s : Server) : Server :=
  asking n 0 V16.heartbeat (.record []) false s

/-- A new caller may ask the session of any connection. -/
theorem Reachable.asks (h : a.Reachable) (same : a.server = s) (n number : ℕ) (m : Message)
    (v : Value) (retry : Bool)
    (fresh : (s.hub.station? n).all fun t => number ∉ t.callers.map Caller.number) :
    Reachable { a with server := asking n number m v retry s } := by
  subst same
  rcases a.server.connection_or n with ⟨t, l, station, link⟩ | none
  · have fresh : number ∉ t.callers.map Caller.number := by
      simpa only [station, Option.all_some, decide_eq_true_eq] using fresh
    exact h.step (.drive n _ station link (.single (.deed (.issue number m v retry fresh))))
  · rwa [asking, Server.onConnection_of_none _ none]

/-- A connection that comes to its end takes its session off the index. -/
theorem Reachable.attends (h : a.Reachable) (same : a.server = s) (n : ℕ) (id : String)
    (own : ((s.onConnection n fun c => ((), c.settle s.signalled)).2.hub.station? n).map
      (·.session.chargePointId) = some id)
    (ended : (s.onConnection n fun c => ((), c.settle s.signalled)).2.links[n]?.map Link.isEnded =
      some true) :
    Reachable { a with server := s.attend n, record := a.record ++ [.unregistered id n] } := by
  subst same
  obtain ⟨t, station, rfl⟩ := Option.map_eq_some_iff.1 own
  obtain ⟨l, link, stopped⟩ := Option.map_eq_some_iff.1 ended
  exact (h.drives n fun c => c.moves_settle).step (.retire n station link stopped)

/-- A charge point has connected, been asked something, connected again and been asked again. -/
def reconnected : Server :=
  pinging 1 ((pinging 0 (quiet.admitted "CP-1" central)).admitted "CP-1" central)

/-- The server shuts down and closes all sessions, and then another charge point is admitted. -/
def belated : Server :=
  ({ reconnected with signalled := true } : Server).clear.admitted "CP-2" central

/-- All connections end. -/
def abandoned : Server :=
  [0, 1, 2].foldl Server.attend belated

theorem Reachable.reconnected : ∃ closures, Reachable
    ⟨reconnected, [.registered "CP-1" 0, .registered "CP-1" 1], [], [], closures⟩ := by
  obtain ⟨_, first⟩ := (Reachable.start ⟨10, .queue, 1, .standard⟩).admits "CP-1" central
  have asked := first.asks (s := quiet.admitted "CP-1" central) rfl 0 0 V16.heartbeat (.record [])
    false (by decide +kernel)
  obtain ⟨_, again⟩ := asked.admits "CP-1" central
  exact ⟨_, again.asks (s := (pinging 0 (quiet.admitted "CP-1" central)).admitted "CP-1" central)
    rfl 1 0 V16.heartbeat (.record []) false (by decide +kernel)⟩

theorem Reachable.belated : ∃ closures, Reachable ⟨belated,
    [.registered "CP-1" 0, .registered "CP-1" 1, .listed 0, .cleared 0, .registered "CP-2" 2], [],
    [⟨[1], true, 1⟩], closures⟩ := by
  obtain ⟨_, before⟩ := Reachable.reconnected
  obtain ⟨_, cleared⟩ := (before.step .signal).clears
  obtain ⟨_, after⟩ := cleared.admits "CP-2" central
  have listed : Annals.reconnected.hub.listed = [1] := by decide +kernel
  have counted : Annals.reconnected.hub.closeAll.1 = 1 := by decide +kernel
  simp only [listed, counted] at after
  exact ⟨_, after⟩

theorem Reachable.abandoned : ∃ closures, Reachable ⟨abandoned,
    [.registered "CP-1" 0, .registered "CP-1" 1, .listed 0, .cleared 0, .registered "CP-2" 2,
      .unregistered "CP-1" 0, .unregistered "CP-1" 1, .unregistered "CP-2" 2], [],
    [⟨[1], true, 1⟩], closures⟩ := by
  obtain ⟨closures, belated⟩ := Reachable.belated
  have first := belated.attends (s := Annals.belated) rfl 0 "CP-1" (by decide +kernel)
    (by decide +kernel)
  have second := first.attends (s := Annals.belated.attend 0) rfl 1 "CP-1" (by decide +kernel)
    (by decide +kernel)
  exact ⟨closures, second.attends (s := (Annals.belated.attend 0).attend 1) rfl 2 "CP-2"
    (by decide +kernel) (by decide +kernel)⟩

/-- The second connection has replaced the first one, whose end does not touch it, and whose session
is closed with everything settled; the call that it waits for is the one that closing all sessions
has cost; and when all have ended, the index is empty and no session is open. -/
theorem sessions_indexed_abandoned :
    reconnected.hub.index.get? "CP-1" = some 1 ∧
    (reconnected.retire 0).hub.index.get? "CP-1" = some 1 ∧
    (∃ t taken, reconnected.hub.station? 0 = some t ∧ t.session.phase = .closed ∧
      (t.restore taken).Settled) ∧
    (∃ closures, Reachable ⟨abandoned, [.registered "CP-1" 0, .registered "CP-1" 1, .listed 0,
        .cleared 0, .registered "CP-2" 2, .unregistered "CP-1" 0, .unregistered "CP-1" 1,
        .unregistered "CP-2" 2], [], [⟨[1], true, 1⟩], closures⟩ ∧
      Errand.cost 0 closures = 1 ∧ (closures.map Closure.session).Nodup) ∧
    abandoned.hub.stations.length = 3 ∧ abandoned.hub.index.entries = [] ∧
    ∀ t ∈ abandoned.hub.stations, t.session.phase ≠ .opened := by
  obtain ⟨_, before⟩ := Reachable.reconnected
  obtain ⟨closures, after⟩ := Reachable.abandoned
  obtain ⟨-, stands, -, others, stations, -⟩ := before.sessions_indexed
  obtain ⟨-, -, -, -, -, ⟨once, sums⟩, ended⟩ := after.sessions_indexed
  have second : reconnected.hub.index.get? "CP-1" = some 1 :=
    (stands "CP-1" 1).2 ⟨[.registered "CP-1" 0], [], rfl, by simp⟩
  have three : abandoned.hub.stations.length = 3 := by decide +kernel
  have first : ∃ t taken, reconnected.hub.station? 0 = some t ∧ t.session.phase = .closed ∧
      (t.restore taken).Settled := by
    have closed : (reconnected.hub.station? 0).map (fun t => (t.session.phase,
        t.session.chargePointId)) = some (.closed, "CP-1") := by decide +kernel
    obtain ⟨t, found, told⟩ := Option.map_eq_some_iff.1 closed
    obtain ⟨phase, own⟩ := Prod.mk.inj told
    obtain ⟨taken, _, -, -, -, gone, -⟩ := stations 0 t found
    rcases gone (by rw [own]; simp [second]) with ⟨-, settled⟩ | closing | ⟨e, mem, -⟩ | missed
    · exact ⟨t, taken, found, phase, settled⟩
    · simp [phase] at closing
    · cases mem
    · obtain ⟨_, _, _, _, _, same, -⟩ := missed
      have mem : IndexEvent.cleared _ ∈ [IndexEvent.registered "CP-1" 0, .registered "CP-1" 1] :=
        same ▸ List.mem_append_right _ List.mem_cons_self
      simp at mem
  refine ⟨second, others "CP-1" 0 1 second (by decide), first,
    ⟨closures, after, (sums 0 _ rfl).symm, once⟩, three, ended ?_⟩
  intro n lt
  have lt : n < 3 := three ▸ lt
  match n, lt with
  | 0, _ => exact ⟨"CP-1", by simp⟩
  | 1, _ => exact ⟨"CP-1", by simp⟩
  | 2, _ => exact ⟨"CP-2", by simp⟩

/-! ## Sessions that go astray -/

/-- Somebody lists the sessions, a charge point connects and is asked something, and then the index
is emptied. -/
def missed : Server :=
  let s := pinging 0 (quiet.admitted "CP-1" central)
  { s with hub := s.hub.clear }

/-- A charge point has been asked something, and a second request has found the slot taken and is to
be sent again. -/
def weary : Server :=
  asking 0 1 V16.meterValues (.record
    [("connectorId", .int 1), ("transactionId", .int 7), ("meterValue", .list [])]) true
    (pinging 0 (strict.admitted "CP-1" central))

theorem Reachable.missed : ∃ closures, Reachable
    ⟨missed, [.listed 0, .registered "CP-1" 0, .cleared 0], [], [⟨[], true, 0⟩], closures⟩ := by
  obtain ⟨_, joined⟩ :=
    ((Reachable.start ⟨10, .queue, 1, .standard⟩).step .list).admits "CP-1" central
  have asked := joined.asks (s := quiet.admitted "CP-1" central) rfl 0 0 V16.heartbeat (.record [])
    false (by decide +kernel)
  exact ⟨_, asked.step (.clear (w := ⟨[], false, 0⟩) 0 rfl rfl)⟩

theorem Reachable.weary : ∃ closures, Reachable ⟨weary.clear,
    [.registered "CP-1" 0, .listed 0, .cleared 0], [], [⟨[0], true, 1⟩], closures⟩ := by
  obtain ⟨_, joined⟩ := (Reachable.start ⟨10, .reject, 1, .standard⟩).admits "CP-1" central
  have asked := joined.asks (s := strict.admitted "CP-1" central) rfl 0 0 V16.heartbeat (.record [])
    false (by decide +kernel)
  have refused := asked.asks (s := pinging 0 (strict.admitted "CP-1" central)) rfl 0 1
    V16.meterValues (.record
      [("connectorId", .int 1), ("transactionId", .int 7), ("meterValue", .list [])]) true
    (by decide +kernel)
  obtain ⟨closures, cleared⟩ := refused.clears
  have listed : Annals.weary.hub.listed = [0] := by decide +kernel
  have counted : Annals.weary.hub.closeAll.1 = 1 := by decide +kernel
  have cleared : Reachable ⟨Annals.weary.clear, [.registered "CP-1" 0, .listed 0, .cleared 0], [],
      [⟨Annals.weary.hub.listed, true, Annals.weary.hub.closeAll.1⟩], _⟩ := cleared
  rw [listed, counted] at cleared
  exact ⟨_, cleared⟩

/-- **A session that is registered may stay open without being in the index,** though nobody is to
close it any more; and a caller may be told nothing for a while after its session has been closed
and taken off the index. -/
theorem registered_astray :
    (∃ closures, Reachable
        ⟨missed, [.listed 0, .registered "CP-1" 0, .cleared 0], [], [⟨[], true, 0⟩], closures⟩) ∧
      missed.hub.index.get? "CP-1" = none ∧
      (missed.hub.station? 0).map (fun t => (t.session.phase, t.session.waiting.length)) =
        some (.opened, 1) ∧
    (∃ closures, Reachable ⟨weary.clear, [.registered "CP-1" 0, .listed 0, .cleared 0], [],
        [⟨[0], true, 1⟩], closures⟩) ∧
      weary.clear.hub.index.get? "CP-1" = none ∧
      (weary.clear.hub.station? 0).map (fun t => (t.session.phase, t.callers.map (·.state))) =
        some (.closed, [.done, .pausing]) :=
  ⟨Reachable.missed, by decide +kernel, by decide +kernel, Reachable.weary, by decide +kernel,
    by decide +kernel⟩

end Annals

end ChargeLink

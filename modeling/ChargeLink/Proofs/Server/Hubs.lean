import ChargeLink.Proofs.Server.Index
import ChargeLink.Proofs.Session.Custody
import ChargeLink.Server.Hub

/-!
# The sessions of a hub and its index

An open session is registered under its own id, unless it is loose: another one
has taken its place, or all sessions were cleared. Anything else may come before the
loose ones are closed.

* `Hub.Sound`: sessions and index belong together, as the record tells.
* `Hub.Sound.enter`, `Hub.Sound.leave`, `Hub.Sound.clear`: so it stays when a
  session is registered, when its connection ends, and when all are cleared.
-/

namespace ChargeLink

namespace Hub

open Station (Deeds Kept)

variable {h h' h'' : Hub} {record : List IndexEvent} {loose : ℕ → Prop} {n : ℕ} {s t : Station}

/-! ## Deeds of the stations -/

/-- From `h` to `h'` the stations have done nothing but deeds. -/
structure Tends (h h' : Hub) : Prop where
  index : h'.index = h.index
  length : h'.stations.length = h.stations.length
  deeds : ∀ n t, h'.station? n = some t → ∃ s, h.station? n = some s ∧ Deeds s t

theorem Tends.refl (h : Hub) : Tends h h :=
  ⟨rfl, rfl, fun _ t found => ⟨t, found, .refl⟩⟩

theorem Tends.trans (a : Tends h h') (b : Tends h' h'') : Tends h h'' := by
  refine ⟨b.index.trans a.index, b.length.trans a.length, fun n t found => ?_⟩
  obtain ⟨s', found', later⟩ := b.deeds n t found
  obtain ⟨s, found, before⟩ := a.deeds n s' found'
  exact ⟨s, found, before.trans later⟩

theorem station?_set (found : h.station? n = some s) (t : Station) (k : ℕ) :
    station? { h with stations := h.stations.set n t } k =
      if k = n then some t else h.station? k := by
  have lt := (List.getElem?_eq_some_iff.1 found).1
  rw [station?, station?, List.getElem?_set]
  by_cases same : n = k
  · simp [same, same ▸ lt]
  · simp [same, Ne.symm same]

theorem Tends.set (found : h.station? n = some s) (deeds : Deeds s t) :
    Tends h { h with stations := h.stations.set n t } := by
  refine ⟨rfl, List.length_set, fun k u there => ?_⟩
  rw [station?_set found] at there
  split at there
  · rename_i same
    cases there
    exact ⟨s, same ▸ found, deeds⟩
  · exact ⟨u, there, .refl⟩

theorem act_of_some (found : h.station? n = some s) (f : Station → Station) :
    h.act n f = { h with stations := h.stations.set n (f s) } := by
  have found : h.stations[n]? = some s := found
  rw [act, found]

theorem act_of_none (none : h.station? n = none) (f : Station → Station) : h.act n f = h := by
  have none : h.stations[n]? = Option.none := none
  rw [act, none]

theorem Tends.act {f : Station → Station} (deeds : ∀ s, h.station? n = some s → Deeds s (f s)) :
    Tends h (h.act n f) := by
  cases found : h.station? n with
  | some s =>
    rw [act_of_some found]
    exact .set found (deeds s found)
  | none =>
    rw [act_of_none found]
    exact .refl h

/-- A session is closed, and its station does what needs no time. -/
theorem close_of_some (found : h.station? n = some s) : h.close n =
    (s.close.1, { h with stations := h.stations.set n s.close.2.settle }) := by
  have found : h.stations[n]? = some s := found
  rw [close, found]

theorem close_of_none (none : h.station? n = none) : h.close n = (0, h) := by
  have none : h.stations[n]? = Option.none := none
  rw [close, none]

theorem Tends.close (h : Hub) (n : ℕ) : Tends h (h.close n).2 := by
  cases found : h.station? n with
  | some s =>
    rw [close_of_some found]
    exact .set found (.trans s.deeds_close (Station.deeds_runFor ..))
  | none =>
    rw [close_of_none found]
    exact .refl h

theorem Tends.closeEach : ∀ (ns : List ℕ) (h : Hub), Tends h (Hub.closeEach ns h).2
  | [], h => .refl h
  | n :: ns, h => (Tends.close h n).trans (closeEach ns _)

/-- The hub with one more session in it and in the index; the one that it replaces is not closed
yet. -/
def entered (h : Hub) (s : Station) : Hub :=
  ⟨h.stations ++ [s], (h.index.register s.session.chargePointId h.nextNumber).2⟩

/-- A session that was added last is put into the index. -/
theorem insert_add (h : Hub) (s : Station) : (h.add s).insert h.nextNumber =
    (h.index.get? s.session.chargePointId, h.entered s) := by
  have last : (h.add s).stations[h.nextNumber]? = some s := by simp [add, nextNumber]
  rw [insert, last]
  rfl

theorem station?_entered (h : Hub) (s : Station) {k : ℕ} : (h.entered s).station? k = some t ↔
    h.station? k = some t ∨ k = h.nextNumber ∧ s = t := by
  rw [station?, station?, entered, nextNumber, List.getElem?_append]
  split
  · rename_i lt
    simp [Nat.ne_of_lt lt]
  · rename_i le
    have none : h.stations[k]? = none := List.getElem?_eq_none (Nat.le_of_not_lt le)
    rw [none, List.getElem?_singleton]
    by_cases last : k = h.stations.length
    · simp [last]
    · have : k - h.stations.length ≠ 0 := by omega
      simp [last, this]

/-! ## Sessions and index -/

/-- Sessions and index belong together: every session is in custody, under its number; the index
tells what its record says; it holds sessions under their own ids; an open session is in it or
`loose`; and one whose connection has ended is not open and not in it. -/
structure Sound (h : Hub) (record : List IndexEvent) (loose : ℕ → Prop) : Prop where
  kept : ∀ n s, h.station? n = some s → ∃ taken, s.Kept taken
  numbered : ∀ n s, h.station? n = some s → s.session.number = n
  tells : h.index.Tells record
  entries : ∀ id n, (id, n) ∈ h.index.entries →
    ∃ s, h.station? n = some s ∧ s.session.chargePointId = id
  registered : ∀ n s, h.station? n = some s → s.session.phase = .opened →
    (s.session.chargePointId, n) ∈ h.index.entries ∨ loose n
  ended : ∀ id n, .unregistered id n ∈ record → ∃ s, h.station? n = some s ∧
    s.session.phase ≠ .opened ∧ (s.session.chargePointId, n) ∉ h.index.entries

namespace Sound

/-- At the start there is neither a session nor an entry. -/
theorem empty : Hub.empty.Sound [] fun _ => False := by
  refine ⟨?_, ?_, .empty, ?_, ?_, ?_⟩ <;> simp [Hub.empty, Hub.station?, SessionIndex.empty]

/-- What the stations do carries every session on. -/
theorem carried (sound : h.Sound record loose) (tends : Tends h h')
    (found : h.station? n = some s) : ∃ t, h'.station? n = some t ∧ s.Carries t := by
  have lt : n < h'.stations.length := tends.length ▸ (List.getElem?_eq_some_iff.1 found).1
  have found' : h'.station? n = some h'.stations[n] := List.getElem?_eq_getElem lt
  obtain ⟨s', before, deeds⟩ := tends.deeds n _ found'
  obtain ⟨taken, kept⟩ := sound.kept n s' before
  rw [found] at before
  cases before
  exact ⟨_, found', (kept.deeds deeds).2⟩

/-- Stations do deeds; `loose'` are those still loose. -/
theorem tends (sound : h.Sound record loose) (tends : Tends h h') {loose' : ℕ → Prop}
    (still : ∀ n t, h'.station? n = some t → t.session.phase = .opened → loose n → loose' n) :
    h'.Sound record loose' := by
  -- each session is carried on, and none is added or lost
  have carried : ∀ n t, h'.station? n = some t →
      ∃ s, h.station? n = some s ∧ (∃ taken, t.Kept taken) ∧ s.Carries t := by
    intro n t found
    obtain ⟨s, before, deeds⟩ := tends.deeds n t found
    obtain ⟨taken, kept⟩ := sound.kept n s before
    exact ⟨s, before, kept.deeds deeds⟩
  have there := fun {n s} => sound.carried tends (n := n) (s := s)
  refine ⟨?_, ?_, tends.index ▸ sound.tells, ?_, ?_, ?_⟩
  · intro n t found
    obtain ⟨s, -, kept, -⟩ := carried n t found
    exact kept
  · intro n t found
    obtain ⟨s, before, -, carries⟩ := carried n t found
    exact carries.number.trans (sound.numbered n s before)
  · intro id n mem
    obtain ⟨s, before, own⟩ := sound.entries id n (tends.index ▸ mem)
    obtain ⟨t, found, carries⟩ := there before
    exact ⟨t, found, carries.chargePointId.trans own⟩
  · intro n t found isOpen
    obtain ⟨s, before, -, carries⟩ := carried n t found
    rw [tends.index, carries.chargePointId]
    exact (sound.registered n s before (carries.isOpen isOpen)).imp_right (still n t found isOpen)
  · intro id n mem
    obtain ⟨s, before, notOpen, gone⟩ := sound.ended id n mem
    obtain ⟨t, found, carries⟩ := there before
    refine ⟨t, found, fun isOpen => notOpen (carries.isOpen isOpen), ?_⟩
    rw [tends.index, carries.chargePointId]
    exact gone

/-- More of the open sessions are loose. -/
theorem mono (sound : h.Sound record loose) {loose' : ℕ → Prop}
    (more : ∀ n, loose n → loose' n) : h.Sound record loose' :=
  sound.tends (.refl h) fun n _ _ _ => more n

/-- An open session that is closed goes through all steps, and has counted its calls. -/
theorem close_of_open (sound : h.Sound record loose) (found : h.station? n = some s)
    (isOpen : s.session.phase = .opened) :
    Tends (h.act n fun u => u.act fun t => t.closing .start) (h.close n).2 ∧
      ∃ t, (h.close n).2.station? n = some t ∧ t.session.phase = .closed ∧
        t.session.abandoned.getD 0 = (h.close n).1 := by
  obtain ⟨taken, kept⟩ := sound.kept n s found
  obtain ⟨⟨taken, kept⟩, -⟩ := kept.deeds s.deeds_close
  obtain ⟨-, carries⟩ := kept.deeds (Station.deeds_runFor s.close.2.now s.close.2.workBound _)
  rw [close_of_some found, act_of_some found]
  constructor
  · have started : Hub.station?
        { h with stations := h.stations.set n (s.act fun t => t.closing .start) } n =
          some (s.act fun t => t.closing .start) := by
      rw [station?_set found, if_pos rfl]
    have closes : Deeds (s.act fun t => t.closing .start) s.close.2.settle := by
      refine .trans ?_ (Station.deeds_runFor ..)
      rw [Station.close_of_open isOpen]
      exact .tail (.single (.closing .abandon)) (.closing .finish)
    have tends := Tends.set started closes
    rwa [List.set_set] at tends
  · have closed := Station.closed_close isOpen
    refine ⟨s.close.2.settle, ?_, carries.closed closed, ?_⟩
    · rw [station?_set found, if_pos rfl]
    · rw [show s.close.2.settle.session.abandoned = _ from carries.counted closed]
      exact (Station.close_fst isOpen).symm

/-- **A session is added and registered:** the one it replaces is loose. -/
theorem enter (sound : h.Sound record loose) {taken : List Note} (kept : s.Kept taken)
    (number : s.session.number = h.nextNumber) :
    (h.entered s).Sound (record ++ [.registered s.session.chargePointId h.nextNumber])
      fun k => h.index.get? s.session.chargePointId = some k ∨ loose k := by
  set id := s.session.chargePointId with hid
  -- the new session comes last, and the others are where they were
  have last : (h.entered s).station? h.nextNumber = some s :=
    (station?_entered h s).2 (.inr ⟨rfl, rfl⟩)
  have before : ∀ k t, h.station? k = some t →
      (h.entered s).station? k = some t ∧ k ≠ h.nextNumber := by
    intro k t found
    exact ⟨(station?_entered h s).2 (.inl found),
      Nat.ne_of_lt (List.getElem?_eq_some_iff.1 found).1⟩
  have entries : ∀ {e}, e ∈ (h.entered s).index.entries ↔
      e = (id, h.nextNumber) ∨ e.1 ≠ id ∧ e ∈ h.index.entries := SessionIndex.mem_register
  refine ⟨?_, ?_, sound.tells.register id h.nextNumber, ?_, ?_, ?_⟩
  · intro k t found
    rcases (station?_entered h s).1 found with old | ⟨-, rfl⟩
    · exact sound.kept k t old
    · exact ⟨taken, kept⟩
  · intro k t found
    rcases (station?_entered h s).1 found with old | ⟨rfl, rfl⟩
    · exact sound.numbered k t old
    · exact number
  · intro id' k mem
    rcases entries.1 mem with new | ⟨-, old⟩
    · cases new
      exact ⟨s, last, rfl⟩
    · obtain ⟨t, found, own⟩ := sound.entries id' k old
      exact ⟨t, (before k t found).1, own⟩
  · intro k t found opened
    rcases (station?_entered h s).1 found with old | ⟨rfl, rfl⟩
    · rcases sound.registered k t old opened with mem | loose
      · by_cases same : t.session.chargePointId = id
        · have replaced := (SessionIndex.get?_eq_some_iff sound.tells.distinct).2 (same ▸ mem)
          exact .inr (.inl replaced)
        · exact .inl (entries.2 (.inr ⟨same, mem⟩))
      · exact .inr (.inr loose)
    · exact .inl (entries.2 (.inl rfl))
  · intro id' k mem
    have mem : IndexEvent.unregistered id' k ∈ record := by simpa using mem
    obtain ⟨t, found, notOpen, gone⟩ := sound.ended id' k mem
    obtain ⟨found', other⟩ := before k t found
    refine ⟨t, found', notOpen, fun there => ?_⟩
    rcases entries.1 there with new | ⟨-, old⟩
    · exact other (Prod.mk.inj new).2
    · exact gone old

/-- **The connection of a session that is not open ends.** -/
theorem leave (sound : h.Sound record loose) (found : h.station? n = some s)
    (notOpen : s.session.phase ≠ .opened) :
    (h.unregister s.session.chargePointId n).2.Sound
      (record ++ [.unregistered s.session.chargePointId n]) loose := by
  have entries : ∀ {e}, e ∈ (h.unregister s.session.chargePointId n).2.index.entries ↔
      e ∈ h.index.entries ∧ e ≠ (s.session.chargePointId, n) :=
    SessionIndex.mem_unregister sound.tells.distinct
  refine ⟨sound.kept, sound.numbered, sound.tells.unregister _ n, ?_, ?_, ?_⟩
  · intro id k mem
    exact sound.entries id k (entries.1 mem).1
  · intro k t there isOpen
    refine (sound.registered k t there isOpen).imp_left fun mem => entries.2 ⟨mem, fun same => ?_⟩
    obtain rfl : k = n := (Prod.mk.inj same).2
    rw [show h.station? k = some t from there] at found
    cases found
    exact notOpen isOpen
  · intro id k mem
    rcases List.mem_append.1 mem with mem | mem
    · obtain ⟨t, there, ended, gone⟩ := sound.ended id k mem
      exact ⟨t, there, ended, fun still => gone (entries.1 still).1⟩
    · obtain ⟨rfl, rfl⟩ : id = s.session.chargePointId ∧ k = n := by simpa using mem
      exact ⟨s, found, notOpen, fun still => (entries.1 still).2 rfl⟩

/-- The sessions of the index are listed. -/
theorem list (sound : h.Sound record loose) (k : ℕ) :
    h.Sound (record ++ [.listed k]) loose := by
  refine ⟨sound.kept, sound.numbered, sound.tells.list k, sound.entries, sound.registered, ?_⟩
  intro id n mem
  exact sound.ended id n (by simpa using mem)

/-- **The index is emptied:** all registered sessions are loose. -/
theorem clear (sound : h.Sound record loose) (k : ℕ) :
    h.clear.Sound (record ++ [.cleared k])
      fun n => (∃ id, (id, n) ∈ h.index.entries) ∨ loose n := by
  refine ⟨sound.kept, sound.numbered, .clear record k, ?_, ?_, ?_⟩
  · intro id n mem
    cases mem
  · intro n t there isOpen
    exact .inr ((sound.registered n t there isOpen).imp_left fun mem => ⟨_, mem⟩)
  · intro id n mem
    have mem : IndexEvent.unregistered id n ∈ record := by simpa using mem
    obtain ⟨t, there, ended, -⟩ := sound.ended id n mem
    exact ⟨t, there, ended, List.not_mem_nil⟩

end Sound

end Hub

end ChargeLink

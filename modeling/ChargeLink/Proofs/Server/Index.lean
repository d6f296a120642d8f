import ChargeLink.Server.SessionIndex
import Mathlib.Data.List.Induction
import Mathlib.Data.List.Nodup
import Mathlib.Data.Nat.Notation

/-!
# The index and its record

The record of an index lists what was done to it: sessions were registered and
unregistered under ids, and all of them were listed and later cleared by one who
closes them. An entry stands if it was the last one to be registered under its id,
and has neither been unregistered nor cleared since. The index holds the entries
that stand, and no others.

* `IndexEvent.stands_concat`: which entries stand after one more event.
* `SessionIndex.Tells.register`, `SessionIndex.Tells.unregister`,
  `SessionIndex.Tells.clear`: the index goes on telling what stands.
-/

namespace ChargeLink

namespace SessionIndex

variable {i : SessionIndex} {id : String} {n : ℕ} {e : String × ℕ}

/-- With one entry for each id, looking up an id finds its entry. -/
theorem get?_eq_some_iff (distinct : i.ids.Nodup) : i.get? id = some n ↔ (id, n) ∈ i.entries := by
  rw [get?, Option.map_eq_some_iff]
  constructor
  · rintro ⟨e, found, rfl⟩
    have same : e.1 = id := by simpa using List.find?_some found
    rw [← same]
    exact List.mem_of_find?_eq_some found
  · intro mem
    cases found : i.entries.find? fun e => e.1 == id with
    | none =>
      have other := List.find?_eq_none.1 found _ mem
      simp at other
    | some e =>
      have same : e.1 = id := by simpa using List.find?_some found
      have := List.inj_on_of_nodup_map distinct (List.mem_of_find?_eq_some found) mem same
      exact ⟨e, rfl, congrArg Prod.snd this⟩

theorem place_perm (id : String) (n : ℕ) (l : List (String × ℕ)) :
    (place id n l).Perm ((id, n) :: l) := by
  induction l with
  | nil => exact .refl _
  | cons e r ih =>
    rw [place]
    split
    · exact .refl _
    · exact (ih.cons e).trans (.swap ..)

/-- Registering puts the entry in the place of those of its id. -/
theorem mem_register :
    e ∈ (i.register id n).2.entries ↔ e = (id, n) ∨ e.1 ≠ id ∧ e ∈ i.entries := by
  simp [register, mem_place, without, and_comm]

theorem nodup_register (distinct : i.ids.Nodup) : (i.register id n).2.ids.Nodup := by
  have perm := (place_perm id n (without id i.entries)).map Prod.fst
  refine perm.nodup_iff.2 (List.nodup_cons.2 ⟨?_, ?_⟩)
  · simp [without]
  · exact distinct.sublist (List.filter_sublist.map _)

theorem get?_register_self (distinct : i.ids.Nodup) : (i.register id n).2.get? id = some n :=
  (get?_eq_some_iff (nodup_register distinct)).2 (mem_register.2 (.inl rfl))

theorem get?_register_of_ne {key : String} (distinct : i.ids.Nodup) (other : key ≠ id) :
    (i.register id n).2.get? key = i.get? key := by
  refine Option.ext fun k => ?_
  rw [get?_eq_some_iff (nodup_register distinct), get?_eq_some_iff distinct, mem_register]
  have old : (key, k) ≠ (id, n) := fun same => other (Prod.mk.inj same).1
  simp [old, other]

/-- Unregistering takes away the entry itself, and nothing else. -/
theorem mem_unregister (distinct : i.ids.Nodup) :
    e ∈ (i.unregister id n).2.entries ↔ e ∈ i.entries ∧ e ≠ (id, n) := by
  by_cases mine : i.get? id = some n
  · have mem := (get?_eq_some_iff distinct).1 mine
    simp only [unregister, if_pos mine, without, List.mem_filter, bne_iff_ne]
    refine and_congr_right fun he => not_congr ⟨fun same => ?_, fun same => by rw [same]⟩
    exact List.inj_on_of_nodup_map distinct he mem same
  · rw [unregister_of_ne mine]
    refine ⟨fun he => ⟨he, ?_⟩, fun he => he.1⟩
    rintro rfl
    exact mine ((get?_eq_some_iff distinct).2 he)

theorem nodup_unregister (distinct : i.ids.Nodup) : (i.unregister id n).2.ids.Nodup := by
  unfold unregister
  split
  · exact distinct.sublist (List.filter_sublist.map _)
  · exact distinct

end SessionIndex

/-! ## The record -/

/-- What was done to an index. Whoever closes all sessions has a number of its own. -/
inductive IndexEvent where
  | registered (id : String) (session : ℕ)
  | unregistered (id : String) (session : ℕ)
  | listed (sweep : ℕ)
  | cleared (sweep : ℕ)
  deriving DecidableEq, Repr

namespace IndexEvent

variable {record : List IndexEvent} {id : String} {n : ℕ} {e : IndexEvent}

/-- The event ends no entry of that session under that id. -/
structure Spares (e : IndexEvent) (id : String) (n : ℕ) : Prop where
  registered : ∀ k, e ≠ .registered id k
  unregistered : e ≠ .unregistered id n
  cleared : ∀ k, e ≠ .cleared k

/-- The session is the last one to have been registered under the id, and has neither been
unregistered nor cleared since. -/
def Stands (record : List IndexEvent) (id : String) (n : ℕ) : Prop :=
  ∃ before after, record = before ++ .registered id n :: after ∧ ∀ e ∈ after, e.Spares id n

theorem not_stands_nil : ¬Stands [] id n := by
  rintro ⟨before, after, same, -⟩
  cases before <;> cases same

/-- **What stands after one more event** is what it registers, or has stood before and is spared. -/
theorem stands_concat :
    Stands (record ++ [e]) id n ↔ e = .registered id n ∨ Stands record id n ∧ e.Spares id n := by
  constructor
  · rintro ⟨before, after, same, spared⟩
    cases after using List.reverseRecOn with
    | nil =>
      have last := List.append_inj_right' same rfl
      exact .inl (List.cons.inj last).1
    | append_singleton after d =>
      rw [← List.cons_append, ← List.append_assoc] at same
      obtain ⟨rfl, last⟩ := List.append_inj' same rfl
      obtain rfl : e = d := (List.cons.inj last).1
      exact .inr ⟨⟨before, after, rfl, fun x hx => spared x (List.mem_append_left _ hx)⟩,
        spared e (List.mem_append_right _ List.mem_cons_self)⟩
  · rintro (rfl | ⟨⟨before, after, rfl, spared⟩, last⟩)
    · exact ⟨record, [], rfl, by simp⟩
    · refine ⟨before, after ++ [e], by simp, fun x hx => ?_⟩
      rcases List.mem_append.1 hx with hx | hx
      · exact spared x hx
      · rw [List.mem_singleton.1 hx]
        exact last

/-- Everything that was registered is in the list of the one who closes all sessions, or was
registered after the listing. -/
def Watches (record : List IndexEvent) (k : ℕ) (entries : List (String × ℕ)) (listed : List ℕ) :
    Prop :=
  ∃ before between, record = before ++ .listed k :: between ∧
    ∀ id n, (id, n) ∈ entries → n ∈ listed ∨ .registered id n ∈ between

/-- The session was registered when all sessions had been listed and were not cleared yet. -/
def Missed (record : List IndexEvent) (n : ℕ) : Prop :=
  ∃ before between after k id, record = before ++ .listed k :: between ++ .cleared k :: after ∧
    .registered id n ∈ between

theorem Missed.append (h : Missed record n) (later : List IndexEvent) :
    Missed (record ++ later) n := by
  obtain ⟨before, between, after, k, id, rfl, mem⟩ := h
  exact ⟨before, between, after ++ later, k, id, by simp, mem⟩

namespace Watches

variable {k : ℕ} {entries entries' : List (String × ℕ)} {listed : List ℕ}

/-- All sessions are listed. -/
theorem start (record : List IndexEvent) (k : ℕ) (entries : List (String × ℕ)) :
    Watches (record ++ [.listed k]) k entries (entries.map Prod.snd) :=
  ⟨record, [], rfl, fun _ _ mem => .inl (List.mem_map_of_mem mem)⟩

/-- New entries are registered. -/
theorem append (h : Watches record k entries listed) (later : List IndexEvent)
    (new : ∀ id n, (id, n) ∈ entries' → (id, n) ∈ entries ∨ .registered id n ∈ later) :
    Watches (record ++ later) k entries' listed := by
  obtain ⟨before, between, rfl, watched⟩ := h
  refine ⟨before, between ++ later, by simp, fun id n mem => ?_⟩
  rcases new id n mem with old | new
  · exact (watched id n old).imp_right (List.mem_append_left _)
  · exact .inr (List.mem_append_right _ new)

/-- What is not listed when all sessions are cleared is missed. -/
theorem missed (h : Watches record k entries listed) (mem : (id, n) ∈ entries) :
    n ∈ listed ∨ Missed (record ++ [.cleared k]) n := by
  obtain ⟨before, between, rfl, watched⟩ := h
  exact (watched id n mem).imp_right fun new => ⟨before, between, [], k, id, by simp, new⟩

end Watches

end IndexEvent

namespace SessionIndex

open IndexEvent (Stands)

variable {i : SessionIndex} {record : List IndexEvent} {id : String} {n : ℕ}

/-- The index has one entry for each id at most, and holds the entries that stand. -/
structure Tells (i : SessionIndex) (record : List IndexEvent) : Prop where
  distinct : i.ids.Nodup
  entries : ∀ id n, (id, n) ∈ i.entries ↔ Stands record id n

namespace Tells

theorem empty : SessionIndex.empty.Tells [] :=
  ⟨List.nodup_nil, fun _ _ =>
    ⟨fun h => (List.not_mem_nil h).elim, fun h => (IndexEvent.not_stands_nil h).elim⟩⟩

theorem get?_eq_some_iff (h : i.Tells record) : i.get? id = some n ↔ Stands record id n :=
  (SessionIndex.get?_eq_some_iff h.distinct).trans (h.entries id n)

/-- A session is registered. -/
theorem register (h : i.Tells record) (id : String) (n : ℕ) :
    (i.register id n).2.Tells (record ++ [.registered id n]) := by
  refine ⟨nodup_register h.distinct, fun id' k => ?_⟩
  rw [mem_register, IndexEvent.stands_concat, h.entries]
  have same : (id', k) = (id, n) ↔ IndexEvent.registered id n = .registered id' k := by
    rw [Prod.mk.injEq, IndexEvent.registered.injEq, eq_comm, eq_comm (a := k)]
  refine or_congr same ?_
  constructor
  · rintro ⟨other, stands⟩
    refine ⟨stands, fun m same => ?_, nofun, nofun⟩
    cases same
    exact other rfl
  · rintro ⟨stands, spared⟩
    refine ⟨?_, stands⟩
    rintro rfl
    exact spared.registered n rfl

/-- A session is unregistered. -/
theorem unregister (h : i.Tells record) (id : String) (n : ℕ) :
    (i.unregister id n).2.Tells (record ++ [.unregistered id n]) := by
  refine ⟨nodup_unregister h.distinct, fun id' k => ?_⟩
  rw [mem_unregister h.distinct, IndexEvent.stands_concat, h.entries]
  constructor
  · rintro ⟨stands, other⟩
    refine .inr ⟨stands, nofun, fun same => ?_, nofun⟩
    cases same
    exact other rfl
  · rintro (same | ⟨stands, spared⟩)
    · cases same
    · refine ⟨stands, fun same => ?_⟩
      cases same
      exact spared.unregistered rfl

/-- The sessions are listed. -/
theorem list (h : i.Tells record) (k : ℕ) : i.Tells (record ++ [.listed k]) := by
  refine ⟨h.distinct, fun id n => ?_⟩
  rw [h.entries, IndexEvent.stands_concat]
  constructor
  · exact fun stands => .inr ⟨stands, nofun, nofun, nofun⟩
  · rintro (same | ⟨stands, -⟩)
    · cases same
    · exact stands

/-- All sessions are cleared. -/
theorem clear (record : List IndexEvent) (k : ℕ) :
    SessionIndex.empty.Tells (record ++ [.cleared k]) := by
  refine ⟨List.nodup_nil, fun id n => ⟨fun h => (List.not_mem_nil h).elim, ?_⟩⟩
  intro stands
  rcases IndexEvent.stands_concat.1 stands with same | ⟨-, spared⟩
  · cases same
  · exact absurd rfl (spared.cleared k)

end Tells

end SessionIndex

end ChargeLink

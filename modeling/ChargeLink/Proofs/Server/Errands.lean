import ChargeLink.Proofs.Server.Hubs

/-!
# Errands

Whoever takes a session off the index for another one to take its place, or closes
all sessions, has to close it. Until that is done the session is an errand: first
it is still to be looked at, and if it is found open, it is being closed. The one
who finds it open is the one whose close counts its calls; an errand that comes too
late does nothing. A sweep is the closing of all sessions: it lists them, empties the
index, makes an errand of each session listed, and adds up what they cost.

* `Errand.Booked`: errands and closures agree with the sessions, and nobody closes a
  session that another one has begun to close.
* `Errand.Tallied`: a sweep has added up what its closures have cost.
-/

namespace ChargeLink

/-- Somebody is to close a session. -/
structure Errand where
  session : ℕ
  /-- Whether the session was found open, and is being closed. -/
  begun : Bool
  /-- The sweep that this is part of; none if another session has taken the place of this one. -/
  sweep : Option ℕ

/-- A session has been closed by the one who found it open. -/
structure Closure where
  session : ℕ
  sweep : Option ℕ
  /-- How many calls the one who closed it was told to have abandoned. -/
  abandoned : ℕ

/-- Somebody closes all sessions. -/
structure Sweep where
  /-- The sessions that were in the index. -/
  listed : List ℕ
  /-- Whether the index has been emptied since. -/
  cleared : Bool
  /-- How many calls were abandoned so far. -/
  abandoned : ℕ

namespace Errand

/-- A session that somebody still has to look at. -/
def fresh (sweep : Option ℕ) (n : ℕ) : Errand :=
  ⟨n, false, sweep⟩

/-- The sessions that an errand has been the first to close. -/
def taken (errands : List Errand) (closures : List Closure) : List ℕ :=
  (errands.filter Errand.begun).map Errand.session ++ closures.map Closure.session

/-- Adds what a session has cost to the sweep that closed it, if any. -/
def bill (sweep : Option ℕ) (abandoned : ℕ) (sweeps : List Sweep) : List Sweep :=
  match sweep with
  | some k => sweeps.modify k fun w => { w with abandoned := w.abandoned + abandoned }
  | none => sweeps

variable {h h' : Hub} {record : List IndexEvent} {loose : ℕ → Prop} {e : Errand} {c : Closure}
  {errands before after new : List Errand} {sweeps : List Sweep} {closures : List Closure}
  {s : Station} {k n : ℕ}

theorem taken_fresh (idle : e.begun = false) :
    taken (before ++ e :: after) closures = taken (before ++ after) closures := by
  simp [taken, idle]

theorem taken_begun (begun : e.begun = true) :
    (taken (before ++ e :: after) closures).Perm
      (e.session :: taken (before ++ after) closures) := by
  simp only [taken, List.filter_append, List.filter_cons_of_pos begun, List.map_append,
    List.map_cons, List.append_assoc, List.cons_append]
  exact List.perm_middle

@[simp] theorem bill_zero (sweep : Option ℕ) (sweeps : List Sweep) :
    bill sweep 0 sweeps = sweeps := by
  cases sweep with
  | none => rfl
  | some k => exact List.modify_id k sweeps

@[simp] theorem bill_bill (sweep : Option ℕ) (m n : ℕ) (sweeps : List Sweep) :
    bill sweep n (bill sweep m sweeps) = bill sweep (m + n) sweeps := by
  cases sweep with
  | none => rfl
  | some k => simp [bill, List.modify_modify_eq, Function.comp_def, Nat.add_assoc]

/-- The sweep that began last gets a bill. -/
theorem bill_last (sweeps : List Sweep) (w : Sweep) (n : ℕ) :
    bill (some sweeps.length) n (sweeps ++ [w]) =
      sweeps ++ [{ w with abandoned := w.abandoned + n }] := by
  simp [bill, List.modify_eq_set_getElem?]

theorem length_bill (sweep : Option ℕ) (n : ℕ) (sweeps : List Sweep) :
    (bill sweep n sweeps).length = sweeps.length := by
  cases sweep <;> simp [bill]

/-- A sweep that has got a bill is the one that it was before, apart from what it has cost. -/
theorem exists_of_bill {w : Sweep} {sweep : Option ℕ} (found : (bill sweep n sweeps)[k]? = some w) :
    ∃ v, sweeps[k]? = some v ∧ v.listed = w.listed ∧ v.cleared = w.cleared := by
  cases sweep with
  | none => exact ⟨w, found, rfl, rfl⟩
  | some j =>
    rw [bill, List.getElem?_modify] at found
    obtain ⟨v, there, rfl⟩ := Option.map_eq_some_iff.1 found
    refine ⟨v, there, ?_⟩
    split <;> exact ⟨rfl, rfl⟩

/-! ## Errands and sessions -/

/-- Every errand is about a session that is there, and not open any more once the errand has begun;
no session is closed by two; and one that somebody has closed is closed, and has counted as many
calls as that one was told. -/
structure Booked (h : Hub) (errands : List Errand) (closures : List Closure) : Prop where
  known : ∀ e ∈ errands, ∃ s, h.station? e.session = some s ∧
    (e.begun = true → s.session.phase ≠ .opened)
  counted : ∀ c ∈ closures, ∃ s, h.station? c.session = some s ∧ s.session.phase = .closed ∧
    s.session.abandoned.getD 0 = c.abandoned
  once : (taken errands closures).Nodup

namespace Booked

/-- The sessions are carried on. -/
theorem onward (booked : Booked h errands closures)
    (carried : ∀ n s, h.station? n = some s → ∃ t, h'.station? n = some t ∧ s.Carries t) :
    Booked h' errands closures := by
  refine ⟨fun e he => ?_, fun c hc => ?_, booked.once⟩
  · obtain ⟨s, found, begun⟩ := booked.known e he
    obtain ⟨t, found', carries⟩ := carried _ s found
    exact ⟨t, found', fun hb isOpen => begun hb (carries.isOpen isOpen)⟩
  · obtain ⟨s, found, closed, counted⟩ := booked.counted c hc
    obtain ⟨t, found', carries⟩ := carried _ s found
    exact ⟨t, found', carries.closed closed, carries.counted closed ▸ counted⟩

/-- Sessions that are there become errands. -/
theorem send (booked : Booked h errands closures)
    (idle : ∀ e ∈ new, e.begun = false ∧ ∃ s, h.station? e.session = some s) :
    Booked h (errands ++ new) closures := by
  have none : new.filter Errand.begun = [] :=
    List.filter_eq_nil_iff.2 fun e he => by simp [(idle e he).1]
  refine ⟨fun e he => ?_, booked.counted, ?_⟩
  · rcases List.mem_append.1 he with old | new
    · exact booked.known e old
    · obtain ⟨fresh, s, found⟩ := idle e new
      exact ⟨s, found, fun begun => by simp [fresh] at begun⟩
  · rw [taken, List.filter_append, none, List.append_nil]
    exact booked.once

/-- What has been closed is not open. -/
theorem not_open (booked : Booked h errands closures) (found : h.station? n = some s)
    (mem : n ∈ taken errands closures) : s.session.phase ≠ .opened := by
  rcases List.mem_append.1 mem with mem | mem
  · obtain ⟨e, he, rfl⟩ := List.mem_map.1 mem
    obtain ⟨he, begun⟩ := List.mem_filter.1 he
    obtain ⟨t, found', ended⟩ := booked.known e he
    rw [found] at found'
    cases found'
    exact ended begun
  · obtain ⟨c, hc, rfl⟩ := List.mem_map.1 mem
    obtain ⟨t, found', closed, -⟩ := booked.counted c hc
    rw [found] at found'
    cases found'
    simp [closed]

/-- An errand has found its session open, which is not so any more. -/
theorem begin (booked : Booked h (before ++ e :: after) closures) (idle : e.begun = false)
    (found : h.station? e.session = some s) (isOpen : s.session.phase = .opened)
    (carried : ∀ n s, h.station? n = some s → ∃ t, h'.station? n = some t ∧ s.Carries t)
    (ended : ∀ t, h'.station? e.session = some t → t.session.phase ≠ .opened) :
    Booked h' (before ++ { e with begun := true } :: after) closures := by
  have later := booked.onward carried
  refine ⟨fun d hd => ?_, later.counted, ?_⟩
  · rcases List.mem_append.1 hd with old | mem
    · exact later.known d (List.mem_append_left _ old)
    · rcases List.mem_cons.1 mem with rfl | old
      · obtain ⟨t, there, -⟩ := later.known e (List.mem_append_right _ List.mem_cons_self)
        exact ⟨t, there, fun _ => ended t there⟩
      · exact later.known d (List.mem_append_right _ (List.mem_cons_of_mem _ old))
  · -- nobody else has been at work on an open session
    have untouched : e.session ∉ taken (before ++ after) closures := by
      rw [← taken_fresh idle]
      exact fun mem => booked.not_open found mem isOpen
    refine (taken_begun rfl).nodup_iff.2 (List.nodup_cons.2 ⟨untouched, ?_⟩)
    have once := booked.once
    rwa [taken_fresh idle] at once

/-- An errand comes too late, and is done. -/
theorem pass (booked : Booked h (before ++ e :: after) closures) (idle : e.begun = false) :
    Booked h (before ++ after) closures := by
  refine ⟨fun d hd => booked.known d ?_, booked.counted, ?_⟩
  · exact List.sublist_cons_self _ _ |>.append_left before |>.subset hd
  · have once := booked.once
    rwa [taken_fresh idle] at once

/-- An errand has closed its session. -/
theorem finish (booked : Booked h (before ++ e :: after) closures) (begun : e.begun = true)
    (found : h.station? e.session = some s) (closed : s.session.phase = .closed) :
    Booked h (before ++ after)
      (closures ++ [⟨e.session, e.sweep, s.session.abandoned.getD 0⟩]) := by
  refine ⟨fun d hd => booked.known d ?_, fun c hc => ?_, ?_⟩
  · exact List.sublist_cons_self _ _ |>.append_left before |>.subset hd
  · rcases List.mem_append.1 hc with old | new
    · exact booked.counted c old
    · obtain rfl := List.mem_singleton.1 new
      exact ⟨s, found, closed, rfl⟩
  · refine List.Perm.nodup_iff ?_ |>.1 booked.once
    refine (taken_begun begun).trans ?_
    simp only [taken, List.map_append, List.map_cons, List.map_nil, ← List.append_assoc]
    exact (List.perm_append_singleton _ _).symm

end Booked

/-! ## Errands and sweeps -/

/-- What a sweep has closed, and what that has cost. -/
def cost (k : ℕ) (closures : List Closure) : ℕ :=
  ((closures.filter fun c => c.sweep = some k).map Closure.abandoned).sum

/-- Errands and closures belong to sweeps that there are, and each sweep has added up what its
closures have cost. -/
structure Tallied (errands : List Errand) (sweeps : List Sweep) (closures : List Closure) :
    Prop where
  begun : ∀ e ∈ errands, ∀ k, e.sweep = some k → k < sweeps.length
  done : ∀ c ∈ closures, ∀ k, c.sweep = some k → k < sweeps.length
  sums : ∀ k w, sweeps[k]? = some w → w.abandoned = cost k closures

namespace Tallied

/-- There are other errands, of sweeps that there are. -/
theorem sends (tallied : Tallied errands sweeps closures)
    (known : ∀ e ∈ new, e ∈ errands ∨ ∀ k, e.sweep = some k → k < sweeps.length) :
    Tallied new sweeps closures := by
  refine ⟨fun e he => ?_, tallied.done, tallied.sums⟩
  exact (known e he).elim (tallied.begun e) id

/-- Another sweep has begun, which has closed nothing. -/
theorem list (tallied : Tallied errands sweeps closures) (listed : List ℕ) :
    Tallied errands (sweeps ++ [⟨listed, false, 0⟩]) closures := by
  have grown : ∀ {k}, k < sweeps.length →
      k < (sweeps ++ [(⟨listed, false, 0⟩ : Sweep)]).length := by
    intro k lt
    rw [List.length_append]
    exact Nat.lt_add_right _ lt
  refine ⟨fun e he k same => grown (tallied.begun e he k same),
    fun c hc k same => grown (tallied.done c hc k same), fun k w found => ?_⟩
  rw [List.getElem?_append] at found
  split at found
  · exact tallied.sums k w found
  · -- no closure belongs to the new sweep
    rename_i le
    have none : closures.filter (fun c => c.sweep = some k) = [] :=
      List.filter_eq_nil_iff.2 fun c hc => by
        simpa using fun same => le (tallied.done c hc k same)
    obtain rfl : w = ⟨listed, false, 0⟩ := (List.mem_singleton.1 (List.mem_of_getElem? found))
    rw [cost, none]
    rfl

/-- A sweep has emptied the index. -/
theorem clear (tallied : Tallied errands sweeps closures) {w : Sweep} (found : sweeps[k]? = some w)
    (cleared : Bool) : Tallied errands (sweeps.set k { w with cleared }) closures := by
  refine ⟨fun e he j same => ?_, fun c hc j same => ?_, fun j v there => ?_⟩
  · rw [List.length_set]
    exact tallied.begun e he j same
  · rw [List.length_set]
    exact tallied.done c hc j same
  · have lt := (List.getElem?_eq_some_iff.1 found).1
    by_cases same : k = j
    · subst same
      rw [List.getElem?_set_self lt] at there
      cases there
      exact tallied.sums k w found
    · rw [List.getElem?_set_ne same] at there
      exact tallied.sums j v there

/-- What an errand has closed is put on the bill. -/
theorem finish (tallied : Tallied errands sweeps closures) (mem : e ∈ errands) (session n : ℕ) :
    Tallied errands (bill e.sweep n sweeps) (closures ++ [⟨session, e.sweep, n⟩]) := by
  have length := length_bill e.sweep n sweeps
  refine ⟨fun d hd k same => ?_, fun c hc k same => ?_, fun k w found => ?_⟩
  · rw [length]
    exact tallied.begun d hd k same
  · rw [length]
    rcases List.mem_append.1 hc with old | new
    · exact tallied.done c old k same
    · obtain rfl := List.mem_singleton.1 new
      exact tallied.begun e mem k same
  · have sum : cost k (closures ++ [⟨session, e.sweep, n⟩]) =
        cost k closures + if e.sweep = some k then n else 0 := by
      simp only [cost, List.filter_append, List.map_append, List.sum_append, List.filter_cons,
        List.filter_nil]
      split <;> simp_all
    rw [sum]
    unfold bill at found
    split at found
    · rename_i j same
      rw [List.getElem?_modify] at found
      obtain ⟨v, there, rfl⟩ := Option.map_eq_some_iff.1 found
      by_cases mine : j = k
      · simp [mine, same, tallied.sums k v there]
      · simp [mine, same, tallied.sums k v there]
    · rename_i none
      simpa [none] using tallied.sums k w found

end Tallied

end Errand

end ChargeLink

import ChargeLink.Proofs.Session.Stations

/-!
# What callers are told

A caller waits for the outcome of a send of its own request, and is told no
other. So whatever is reported to a caller is the outcome of a request that it
has asked for.

* `Station.Told.settled`: who waits for a call is told its outcome.
* `Station.Told.foldl`: so it stays while a station takes in effects.
-/

namespace ChargeLink.Station

variable {s t : Station} {asked asked' : List (Message × Value)}
  {Out Out' : ℕ → Except CallFailure Value → Prop}

/-- Who waits has asked for what it waits for, and who was told an outcome has asked for the request
that it is the outcome of. -/
structure Told (s : Station) (asked : List (Message × Value))
    (Out : ℕ → Except CallFailure Value → Prop) : Prop where
  numbers : (s.callers.map Caller.number).Nodup
  asks : ∀ a ∈ s.callers, ∀ k, a.state = .waiting k → asked[k]? = some (a.message, a.request)
  reported : ∀ n o, Note.reported n o ∈ s.notes → ∃ a ∈ s.callers, a.number = n ∧
    ∃ k, asked[k]? = some (a.message, a.request) ∧ Out k o

/-- Who is replaced is there. -/
theorem mem_putCaller_self {c c' : Caller} (mem : c ∈ s.callers) (same : c.number = c'.number) :
    c' ∈ (s.putCaller c').callers :=
  List.mem_map.2 ⟨c, mem, if_pos same⟩

/-- Nobody else is replaced. -/
theorem mem_putCaller_of_ne {a c : Caller} (mem : a ∈ s.callers) (other : a.number ≠ c.number) :
    a ∈ (s.putCaller c).callers :=
  List.mem_map.2 ⟨a, mem, if_neg other⟩

namespace Told

/-- Callers and reports are the same. -/
theorem congr (h : Told s asked Out) (callers : t.callers = s.callers)
    (notes : ∀ n o, Note.reported n o ∈ t.notes → .reported n o ∈ s.notes) :
    Told t asked Out := by
  refine ⟨?_, ?_, fun n o mem => ?_⟩
  · rw [callers]
    exact h.numbers
  · rw [callers]
    exact h.asks
  · rw [callers]
    exact h.reported n o (notes n o mem)

/-- More has been asked for and settled. -/
theorem mono (h : Told s asked Out) (more : asked <+: asked')
    (sub : ∀ k o, Out k o → Out' k o) : Told s asked' Out' := by
  have kept : ∀ {k : ℕ} {x}, asked[k]? = some x → asked'[k]? = some x := by
    intro k x found
    obtain ⟨later, rfl⟩ := more
    rw [List.getElem?_append_left (List.getElem?_eq_some_iff.1 found).1]
    exact found
  refine ⟨h.numbers, fun a ha k waits => kept (h.asks a ha k waits), fun n o mem => ?_⟩
  obtain ⟨a, ha, number, k, found, outcome⟩ := h.reported n o mem
  exact ⟨a, ha, number, k, kept found, sub k o outcome⟩

/-- A caller is replaced by itself in another state. -/
theorem put (h : Told s asked Out) {c : Caller} (mem : c ∈ s.callers) (attempt : ℕ)
    (state : CallerState)
    (waits : ∀ k, state = .waiting k → asked[k]? = some (c.message, c.request)) :
    Told (s.putCaller { c with attempt, state }) asked Out := by
  refine ⟨?_, ?_, ?_⟩
  · rw [numbers_putCaller]
    exact h.numbers
  · intro a ha k waiting
    rcases mem_putCaller ha with rfl | ⟨old, -⟩
    · exact waits k waiting
    · exact h.asks a old k waiting
  · intro n o note
    obtain ⟨a, ha, number, outcome⟩ := h.reported n o note
    by_cases same : a.number = c.number
    · obtain rfl : a = c := List.inj_on_of_nodup_map h.numbers ha mem same
      exact ⟨_, mem_putCaller_self ha rfl, number, outcome⟩
    · exact ⟨a, mem_putCaller_of_ne ha same, number, outcome⟩

/-- A caller is told the outcome of a request that it has asked for. -/
theorem report (h : Told s asked Out) {c : Caller} (mem : c ∈ s.callers) {k : ℕ}
    {o : Except CallFailure Value} (found : asked[k]? = some (c.message, c.request))
    (outcome : Out k o) : Told (s.report c o) asked Out := by
  have done : Told (s.putCaller { c with state := .done }) asked Out :=
    h.put mem c.attempt .done fun k waits => by cases waits
  unfold Station.report
  split
  · refine ⟨done.numbers, done.asks, fun n o' note => ?_⟩
    rcases List.mem_append.1 note with note | note
    · exact done.reported n o' note
    · -- the caller itself is told
      cases List.mem_singleton.1 note
      exact ⟨_, mem_putCaller_self mem rfl, rfl, k, found, outcome⟩
  · exact done

/-- **Who waits for a call is told its outcome,** or makes another attempt. -/
theorem settled (h : Told s asked Out) (k : ℕ) (o : Except CallFailure Value) :
    Told (s.settled k o) asked fun i o' => Out i o' ∨ i = k ∧ o' = o := by
  have more : Told s asked fun i o' => Out i o' ∨ i = k ∧ o' = o :=
    h.mono List.prefix_rfl fun _ _ => .inl
  unfold Station.settled
  split
  · exact more
  · rename_i c found
    have mem : c ∈ s.callers := List.mem_of_find?_eq_some found
    have waits : c.state = .waiting k := by simpa using List.find?_some found
    have told : ∀ o', o' = o → Told (s.report c o') asked fun i o' => Out i o' ∨ i = k ∧ o' = o :=
      fun o' same => more.report mem (h.asks c mem k waits) (.inr ⟨rfl, same⟩)
    split
    · exact told _ rfl
    · split
      · split
        · exact told _ rfl
        · exact more.put mem c.attempt .done fun k waits => by cases waits
        · have pauses := more.put mem c.attempt .pausing fun k waits => by cases waits
          exact pauses.congr rfl fun _ _ => id
      · exact told _ rfl

/-- An effect is taken in. -/
theorem absorb (h : Told s asked Out) (e : Effect) :
    Told (s.absorb e) asked fun k o => Out k o ∨ e = .settled k o := by
  have more : Told s asked fun k o => Out k o ∨ e = .settled k o :=
    h.mono List.prefix_rfl fun _ _ => .inl
  cases e with
  | settled k o =>
    refine (h.settled k o).mono List.prefix_rfl fun i o' outcome => outcome.imp_right ?_
    rintro ⟨rfl, rfl⟩
    rfl
  | entered c handler request =>
    refine more.congr ?_ fun n o note => ?_
    · simp only [Station.absorb, Station.entered]
      split <;> rfl
    · simp only [Station.absorb, Station.entered] at note
      split at note <;> simpa [Station.note, Station.later] using note
  | sent | published | dispatched =>
    exact more.congr rfl fun n o note => by simpa [Station.absorb, Station.note] using note
  | accepted | started | called | returned => exact more

theorem foldl : ∀ (es : List Effect) {s : Station}
    {Out : ℕ → Except CallFailure Value → Prop}, Told s asked Out →
    Told (es.foldl Station.absorb s) asked fun k o => Out k o ∨ .settled k o ∈ es
  | [], _, _, h => h.mono List.prefix_rfl fun _ _ => .inl
  | e :: es, s, Out, h => by
    refine (foldl es (h.absorb e)).mono List.prefix_rfl fun k o outcome => ?_
    rcases outcome with (before | now) | later
    · exact .inl before
    · exact .inr (now ▸ List.mem_cons_self)
    · exact .inr (List.mem_cons_of_mem _ later)

/-- A new caller joins. -/
theorem join (h : Told s asked Out) (c : Caller) (fresh : c.number ∉ s.callers.map Caller.number)
    (done : c.state = .done) : Told { s with callers := s.callers ++ [c] } asked Out := by
  refine ⟨?_, fun a ha k waits => ?_, fun n o note => ?_⟩
  · rw [List.map_append, List.nodup_append]
    refine ⟨h.numbers, List.nodup_singleton _, fun a ha b hb => ?_⟩
    rw [List.mem_singleton.1 hb]
    rintro rfl
    exact fresh ha
  · rcases List.mem_append.1 ha with ha | ha
    · exact h.asks a ha k waits
    · rw [List.mem_singleton.1 ha, done] at waits
      cases waits
  · obtain ⟨a, ha, outcome⟩ := h.reported n o note
    exact ⟨a, List.mem_append_left _ ha, outcome⟩

/-- A caller no longer listens. -/
theorem forget (h : Told s asked Out) (number : ℕ) : Told (s.forget number) asked Out := by
  set deaf : Caller → Caller := fun b =>
    if b.number = number then { b with listening := false } else b
  have kept : ∀ b, (deaf b).number = b.number ∧ (deaf b).state = b.state ∧
      (deaf b).message = b.message ∧ (deaf b).request = b.request := by
    intro b
    simp only [deaf]
    split <;> exact ⟨rfl, rfl, rfl, rfl⟩
  have old : ∀ a ∈ (s.forget number).callers, ∃ b ∈ s.callers, deaf b = a :=
    fun a ha => List.mem_map.1 ha
  refine ⟨?_, fun a ha k waits => ?_, fun n o note => ?_⟩
  · have numbers : (s.forget number).callers.map Caller.number = s.callers.map Caller.number := by
      rw [Station.forget, List.map_map]
      exact List.map_congr_left fun b _ => (kept b).1
    rw [numbers]
    exact h.numbers
  · obtain ⟨b, hb, rfl⟩ := old a ha
    obtain ⟨-, state, message, request⟩ := kept b
    rw [state] at waits
    rw [message, request]
    exact h.asks b hb k waits
  · obtain ⟨a, ha, same, k, found, outcome⟩ := h.reported n o note
    obtain ⟨number', -, message, request⟩ := kept a
    refine ⟨deaf a, List.mem_map_of_mem ha, number'.trans same, k, ?_, outcome⟩
    rw [message, request]
    exact found

end Told

end ChargeLink.Station

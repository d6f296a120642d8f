/-!
# The index of sessions

Which session speaks for which charge point: at most one for each id, kept by
ascending id. A session that is registered under an id takes the place of the
one before it; one that has been replaced cannot take its successor away.
-/

namespace ChargeLink

/-- The registered sessions by charge point id. -/
structure SessionIndex where
  entries : List (String × Nat)

namespace SessionIndex

/-- The index without sessions. -/
def empty : SessionIndex := ⟨[]⟩

/-- The session of a charge point. -/
def get? (i : SessionIndex) (id : String) : Option Nat :=
  (i.entries.find? fun e => e.1 == id).map (·.2)

/-- The entries without those of an id. -/
def without (id : String) (entries : List (String × Nat)) : List (String × Nat) :=
  entries.filter fun e => e.1 != id

/-- The entries with one more at its place by id. -/
def place (id : String) (session : Nat) : List (String × Nat) → List (String × Nat)
  | [] => [(id, session)]
  | e :: r => if id < e.1 then (id, session) :: e :: r else e :: place id session r

/-- Registers a session under an id, and gives the session it replaces. -/
def register (i : SessionIndex) (id : String) (session : Nat) : Option Nat × SessionIndex :=
  (i.get? id, ⟨place id session (without id i.entries)⟩)

/-- Removes a session from under an id, if it is the one registered there. -/
def unregister (i : SessionIndex) (id : String) (session : Nat) : Bool × SessionIndex :=
  if i.get? id = some session then (true, ⟨without id i.entries⟩) else (false, i)

/-- The registered ids, ascending. -/
def ids (i : SessionIndex) : List String :=
  i.entries.map (·.1)

/-- How many sessions are registered. -/
def count (i : SessionIndex) : Nat :=
  i.entries.length

@[simp]
theorem get?_empty (id : String) : empty.get? id = none :=
  rfl

theorem mem_place {e : String × Nat} {id : String} {n : Nat} {l : List (String × Nat)} :
    e ∈ place id n l ↔ e = (id, n) ∨ e ∈ l := by
  induction l with
  | nil => simp [place]
  | cons d r ih =>
    simp only [place]
    split
    · simp
    · simp only [List.mem_cons, ih]
      constructor
      · rintro (h | h | h) <;> simp [h]
      · rintro (h | h | h) <;> simp [h]

/-- A session that is not the registered one takes nothing away. -/
theorem unregister_of_ne {i : SessionIndex} {id : String} {n : Nat} (h : i.get? id ≠ some n) :
    i.unregister id n = (false, i) := by
  simp [unregister, h]

end SessionIndex

end ChargeLink

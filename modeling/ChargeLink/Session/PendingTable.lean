import ChargeLink.Session.Failure

/-!
# The pending call

A session has at most one call outstanding. A call leaves the table once, by
whatever comes first: an answer, its deadline, or being taken. It carries who
waits for it and the timer that is to be cancelled when it is settled.
-/

namespace ChargeLink

/-- A call that waits for its answer. -/
structure PendingCall (τ ρ : Type) where
  id : String
  action : String
  createdAt : Nat
  deadline : Nat
  owner : ρ
  timer : Option τ

/-- The raw outcome of a call: the payload of the answer, or why there is none. -/
abbrev RawOutcome := Except CallFailure Json

/-- A call at the moment of its settling: the timer of `call` is cancelled, and `outcome` goes to
its owner. -/
structure Settlement (τ ρ : Type) where
  call : PendingCall τ ρ
  outcome : RawOutcome
  time : Nat

/-- The slot for the one outstanding call. -/
structure PendingTable (τ ρ : Type) where
  slot : Option (PendingCall τ ρ)

variable {τ ρ : Type}

/-- How long the call waited. -/
def Settlement.elapsed (s : Settlement τ ρ) : Nat :=
  s.time - s.call.createdAt

/-- Settles a call. -/
def PendingCall.settle (c : PendingCall τ ρ) (time : Nat) (outcome : RawOutcome) :
    Settlement τ ρ :=
  ⟨c, outcome, time⟩

/-- The call in a diagnostic, with its deadline in the given form. -/
def PendingCall.diagnostic (c : PendingCall τ ρ) (deadline : String) : String :=
  "PendingCall \x7b unique_id: " ++ Text.diagnostic c.id ++ ", action: " ++
    Text.diagnostic c.action ++ ", deadline: " ++ deadline ++ ", .. \x7d"

namespace PendingTable

/-- The table without a call. -/
def empty : PendingTable τ ρ := ⟨none⟩

/-- Whether no call is outstanding. -/
def isFree (t : PendingTable τ ρ) : Bool :=
  t.slot.isNone

/-- The id of the outstanding call. -/
def outstandingId (t : PendingTable τ ρ) : Option String :=
  t.slot.map (·.id)

/-- Takes the slot for a call; `none` if another call holds it. -/
def reserve? (t : PendingTable τ ρ) (c : PendingCall τ ρ) : Option (PendingTable τ ρ) :=
  if t.isFree then some ⟨some c⟩ else none

/-- Gives the outstanding call its timer, if it has that id. -/
def attach (t : PendingTable τ ρ) (id : String) (timer : τ) : Bool × PendingTable τ ρ :=
  match t.slot with
  | some c => if c.id = id then (true, ⟨some { c with timer := some timer }⟩) else (false, t)
  | none => (false, t)

/-- Removes the outstanding call, if it has that id. -/
def take (t : PendingTable τ ρ) (id : String) : Option (PendingCall τ ρ) × PendingTable τ ρ :=
  match t.slot with
  | some c => if c.id = id then (some c, ⟨none⟩) else (none, t)
  | none => (none, t)

/-- Removes whatever call is outstanding. -/
def takeAny (t : PendingTable τ ρ) : Option (PendingCall τ ρ) × PendingTable τ ρ :=
  (t.slot, ⟨none⟩)

/-- Settles the call of that id, if it is outstanding. -/
def settle (t : PendingTable τ ρ) (id : String) (time : Nat) (outcome : RawOutcome) :
    Option (Settlement τ ρ) × PendingTable τ ρ :=
  let (call, rest) := t.take id
  (call.map fun c => c.settle time outcome, rest)

/-- The call of that id has been answered. -/
def resolve (t : PendingTable τ ρ) (id : String) (time : Nat) (payload : Json) :
    Option (Settlement τ ρ) × PendingTable τ ρ :=
  t.settle id time (.ok payload)

/-- The call of that id has failed. -/
def reject (t : PendingTable τ ρ) (id : String) (time : Nat) (failure : CallFailure) :
    Option (Settlement τ ρ) × PendingTable τ ρ :=
  t.settle id time (.error failure)

/-- The deadline of the call of that id has come. -/
def expire (t : PendingTable τ ρ) (id : String) (time : Nat) :
    Option (Settlement τ ρ) × PendingTable τ ρ :=
  t.reject id time .timeout

@[simp]
theorem isFree_empty : (empty : PendingTable τ ρ).isFree = true :=
  rfl

theorem isFree_iff {t : PendingTable τ ρ} : t.isFree = true ↔ t = empty := by
  rcases t with ⟨_ | c⟩ <;> simp [isFree, empty]

theorem isFree_iff_outstandingId {t : PendingTable τ ρ} :
    t.isFree = true ↔ t.outstandingId = none := by
  simp [isFree, outstandingId]

theorem exists_of_outstandingId {t : PendingTable τ ρ} {id : String}
    (h : t.outstandingId = some id) : ∃ c, t = ⟨some c⟩ ∧ c.id = id := by
  rcases t with ⟨_ | c⟩
  · simp [outstandingId] at h
  · exact ⟨c, rfl, by simpa [outstandingId] using h⟩

/-- The slot can be taken exactly when it is free. -/
theorem isSome_reserve? (t : PendingTable τ ρ) (c : PendingCall τ ρ) :
    (t.reserve? c).isSome = t.isFree := by
  cases h : t.isFree <;> simp [reserve?, h]

theorem outstandingId_of_reserve? {t u : PendingTable τ ρ} {c : PendingCall τ ρ}
    (h : t.reserve? c = some u) : u.outstandingId = some c.id := by
  simp only [reserve?] at h
  split at h
  · cases h
    rfl
  · cases h

/-- A call of another id is left alone. -/
theorem take_of_ne {t : PendingTable τ ρ} {id : String} (h : t.outstandingId ≠ some id) :
    t.take id = (none, t) := by
  rcases t with ⟨_ | c⟩
  · rfl
  · have : c.id ≠ id := by simpa [outstandingId] using h
    simp [take, this]

/-- Taking the outstanding call frees the slot. -/
theorem take_of_eq {t : PendingTable τ ρ} {id : String} (h : t.outstandingId = some id) :
    (t.take id).1 = t.slot ∧ (t.take id).2 = empty := by
  rcases t with ⟨_ | c⟩
  · simp [outstandingId] at h
  · have : c.id = id := by simpa [outstandingId] using h
    simp [take, this, empty]

/-- A call is settled exactly when it is the outstanding one. -/
theorem isSome_settle_iff {t : PendingTable τ ρ} {id : String} {time : Nat} {o : RawOutcome} :
    (t.settle id time o).1.isSome = true ↔ t.outstandingId = some id := by
  by_cases h : t.outstandingId = some id
  · obtain ⟨first, _⟩ := take_of_eq h
    rcases t with ⟨_ | c⟩
    · simp [outstandingId] at h
    · simp [settle, first, h]
  · simp [settle, take_of_ne h, h]

end PendingTable

end ChargeLink

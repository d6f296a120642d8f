/-!
# Timers

A supervisor holds the timers of one or more sessions. Timers fire in the order
of their deadlines, and equal deadlines in the order in which the timers were
armed: each timer's key is greater than all earlier ones. Without an event loop
no timer can be armed.
-/

namespace ChargeLink

/-- An armed timer and what it is for. -/
structure Timer (α : Type) where
  key : Nat
  deadline : Nat
  task : α

/-- Whether a timer fires before another one. -/
def Timer.before {α : Type} (s t : Timer α) : Bool :=
  s.deadline < t.deadline || (s.deadline == t.deadline && s.key < t.key)

/-- The armed timers. -/
structure Supervisor (α : Type) where
  hasLoop : Bool
  nextKey : Nat
  armed : List (Timer α)

/-- Why no timer can be armed. -/
def noLoopMessage : String :=
  "No tokio runtime available to arm the call timer"

namespace Supervisor

variable {α : Type}

/-- A supervisor without timers. -/
def create (hasLoop : Bool) : Supervisor α :=
  ⟨hasLoop, 0, []⟩

/-- Arms a timer, and gives its key. -/
def schedule (s : Supervisor α) (deadline : Nat) (task : α) : Option (Nat × Supervisor α) :=
  if s.hasLoop then
    some (s.nextKey,
      { s with nextKey := s.nextKey + 1, armed := ⟨s.nextKey, deadline, task⟩ :: s.armed })
  else none

/-- Takes a key without arming a timer. -/
def drawKey (s : Supervisor α) : Nat × Supervisor α :=
  (s.nextKey, { s with nextKey := s.nextKey + 1 })

/-- Disarms a timer; a key that is not armed changes nothing. The timer is off the count at once. In
a running process the count follows a little later, when the runtime drops the task that waits for
the timer; until then that task does nothing any more. -/
def abort (s : Supervisor α) (key : Nat) : Supervisor α :=
  { s with armed := s.armed.filter fun t => t.key != key }

/-- How many timers are armed. -/
def count (s : Supervisor α) : Nat :=
  s.armed.length

/-- The timer that fires first, of several. -/
def earliest : List (Timer α) → Option (Timer α)
  | [] => none
  | t :: r =>
    match earliest r with
    | some u => if u.before t then some u else some t
    | none => some t

/-- The timer that fires next, if its deadline is within the limit. -/
def due? (s : Supervisor α) (limit : Nat) : Option (Timer α) :=
  match earliest s.armed with
  | some t => if t.deadline ≤ limit then some t else none
  | none => none

/-- Fires every timer that is due within the limit, at most `fuel` of them. -/
def fireDue (limit : Nat) : (fuel : Nat) → Supervisor α → List (Timer α) × Supervisor α
  | 0, s => ([], s)
  | fuel + 1, s =>
    match s.due? limit with
    | none => ([], s)
    | some t =>
      let (fired, s) := fireDue limit fuel (s.abort t.key)
      (t :: fired, s)

/-- Fires every timer that is due within the limit. -/
def advance (s : Supervisor α) (limit : Nat) : List (Timer α) × Supervisor α :=
  fireDue limit s.count s

@[simp]
theorem count_create (hasLoop : Bool) : (create hasLoop : Supervisor α).count = 0 :=
  rfl

theorem schedule_eq_none_iff {s : Supervisor α} {deadline : Nat} {task : α} :
    s.schedule deadline task = none ↔ s.hasLoop = false := by
  cases h : s.hasLoop <;> simp [schedule, h]

theorem count_abort_le (s : Supervisor α) (key : Nat) : (s.abort key).count ≤ s.count :=
  List.length_filter_le ..

theorem mem_of_earliest {l : List (Timer α)} {t : Timer α} (h : earliest l = some t) : t ∈ l := by
  induction l generalizing t with
  | nil => simp [earliest] at h
  | cons u r ih =>
    simp only [earliest] at h
    split at h
    · rename_i v hv
      split at h <;> cases h
      · exact List.mem_cons_of_mem _ (ih hv)
      · exact List.mem_cons_self
    · cases h
      exact List.mem_cons_self

theorem earliest_eq_none_iff {l : List (Timer α)} : earliest l = none ↔ l = [] := by
  cases l with
  | nil => simp [earliest]
  | cons u r =>
    simp only [earliest]
    split
    · split <;> simp
    · simp

end Supervisor

end ChargeLink

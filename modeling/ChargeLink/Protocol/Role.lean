/-!
# Roles and life cycle

Which end of a connection a session plays, and the three phases of its life. A
session's phase only moves forward (`Phase.le_advance`).
-/

namespace ChargeLink

/-- An end of a connection. -/
inductive Role where
  | chargePoint
  | centralSystem
  deriving DecidableEq, Repr

/-- The role for people. -/
def Role.title : Role → String
  | .chargePoint => "charge-point"
  | .centralSystem => "central-system"

/-- A phase of a session's life. -/
inductive Phase where
  | opened
  | closing
  | closed
  deriving DecidableEq, Repr

namespace Phase

/-- The place of a phase in a session's life. -/
def rank : Phase → Nat
  | opened => 0
  | closing => 1
  | closed => 2

instance : LT Phase := ⟨fun a b => a.rank < b.rank⟩

instance : LE Phase := ⟨fun a b => a.rank ≤ b.rank⟩

instance (a b : Phase) : Decidable (a < b) := inferInstanceAs (Decidable (a.rank < b.rank))

instance (a b : Phase) : Decidable (a ≤ b) := inferInstanceAs (Decidable (a.rank ≤ b.rank))

/-- The phase for people. -/
def title : Phase → String
  | opened => "open"
  | closing => "closing"
  | closed => "closed"

/-- The phase as a tag. -/
def tag : Phase → String
  | opened => "Open"
  | closing => "Closing"
  | closed => "Closed"

/-- Moves forward to a phase, never back. -/
def advance (p target : Phase) : Phase :=
  if p < target then target else p

theorem le_advance (p target : Phase) : p ≤ p.advance target := by
  cases p <;> cases target <;> decide

theorem target_le_advance (p target : Phase) : target ≤ p.advance target := by
  cases p <;> cases target <;> decide

end Phase

end ChargeLink

import ChargeLink.Protocol.ErrorCode
import ChargeLink.Schema.Shape

/-!
# Handlers

A handler answers the requests of one message type. What it does is given by
its reaction to a request and to how often it has been entered before: it may
take time, and then it replies, fails or panics. Of a failure nothing but its
code ever reaches the peer.
-/

namespace ChargeLink

/-- Why a handler could not do its job. -/
inductive HandlerError where
  | internal (message : String)
  | notSupported
  | security (message : String)
  deriving DecidableEq, Repr

/-- The code of a handler's failure. -/
def HandlerError.code : HandlerError → ErrorCode
  | internal _ => .internalError
  | notSupported => .notSupported
  | security _ => .securityError

/-- How a handler ends. -/
inductive Answer where
  | reply (confirmation : Value)
  | fail (error : HandlerError)
  | panic

/-- The code of an answer that is no confirmation. -/
def Answer.code? : Answer → Option ErrorCode
  | reply _ => none
  | fail error => some error.code
  | panic => some .internalError

/-- What a handler does with one request: how long it takes in milliseconds, and how it ends. -/
structure Reaction where
  delay : Nat
  answer : Answer

/-- A handler of one message type. -/
structure Handler where
  message : Message
  react : Nat → Value → Reaction

/-- The action that the handler serves. -/
def Handler.action (h : Handler) : String :=
  h.message.action

/-- Hands a request of the type of `owner` to the handler: a request of another type than its own
is an internal failure, and the handler is not entered. -/
def Handler.invoke? (h owner : Handler) (entered : Nat) (request : Value) : Option Reaction :=
  if h.action = owner.action then some (h.react entered request) else none

/-- How often the handler of each action has been entered. -/
structure Tally where
  counts : List (String × Nat)

namespace Tally

/-- Nothing has been entered. -/
def empty : Tally := ⟨[]⟩

/-- How often the action's handler has been entered. -/
def count (t : Tally) (action : String) : Nat :=
  ((t.counts.find? fun p => p.1 == action).map (·.2)).getD 0

/-- Counts one more entry of the action's handler. -/
def enter (t : Tally) (action : String) : Tally :=
  ⟨(action, t.count action + 1) :: t.counts.filter fun p => p.1 != action⟩

@[simp]
theorem count_empty (action : String) : empty.count action = 0 :=
  rfl

@[simp]
theorem count_enter_self (t : Tally) (action : String) :
    (t.enter action).count action = t.count action + 1 := by
  simp [enter, count]

theorem find?_filter_ne {l : List (String × Nat)} {a b : String} (h : b ≠ a) :
    (l.filter fun p => p.1 != a).find? (fun p => p.1 == b) = l.find? fun p => p.1 == b := by
  induction l with
  | nil => rfl
  | cons p r ih =>
    by_cases hp : p.1 = a
    · have hb : (p.1 == b) = false := by simpa using fun e => h (e.symm.trans hp)
      rw [List.filter_cons_of_neg (by simp [hp]), ih, List.find?_cons, hb]
    · rw [List.filter_cons_of_pos (by simp [hp]), List.find?_cons, List.find?_cons, ih]

theorem count_enter_of_ne (t : Tally) {action other : String} (h : other ≠ action) :
    (t.enter action).count other = t.count other := by
  have hne : (action == other) = false := by simpa using fun e => h e.symm
  simp [enter, count, hne, find?_filter_ne h]

end Tally

end ChargeLink

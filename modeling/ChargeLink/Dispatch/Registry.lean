import ChargeLink.Dispatch.Handler
import ChargeLink.Protocol.Actions
import ChargeLink.Protocol.Role
import ChargeLink.Text.Quoted

/-!
# Registries

The handlers of one version and role, one for each action, kept by ascending
action. Registering an action twice fails and changes nothing, so the first
handler stays. An action without a handler is told apart by whether the version
defines it.
-/

namespace ChargeLink

/-- The handler in a diagnostic. -/
def Handler.diagnostic (h : Handler) : String :=
  "FeatureEntry \x7b action: " ++ Text.diagnostic h.action ++ ", request_type: " ++
    Text.diagnostic h.message.request.name ++ ", confirmation_type: " ++
    Text.diagnostic h.message.confirmation.name ++ " \x7d"

/-- The handlers that serve a version in a role. -/
structure Registry where
  version : Version
  role : Role
  handlers : List Handler
  ascending : (handlers.map Handler.action).Pairwise (· < ·)

/-- Why a handler could not be registered. -/
inductive RegistryError where
  | duplicateAction (action : String)
  deriving DecidableEq, Repr

/-- The error in words. -/
def RegistryError.message : RegistryError → String
  | duplicateAction action => "Action " ++ action ++ " is already registered"

namespace Registry

/-- A registry without handlers. -/
def empty (version : Version) (role : Role) : Registry :=
  ⟨version, role, [], .nil⟩

/-- Whether an action has a handler. -/
def contains (r : Registry) (action : String) : Bool :=
  r.handlers.any fun h => h.action == action

/-- The handlers with one more at its place by action. -/
def place (h : Handler) : List Handler → List Handler
  | [] => [h]
  | g :: r => if h.action < g.action then h :: g :: r else g :: place h r

theorem mem_place {h g : Handler} {hs : List Handler} : g ∈ place h hs ↔ g = h ∨ g ∈ hs := by
  induction hs with
  | nil => simp [place]
  | cons k r ih =>
    simp only [place]
    split
    · simp
    · simp only [List.mem_cons, ih]
      constructor <;> rintro (h | h | h) <;> simp [h]

theorem pairwise_place {h : Handler} {hs : List Handler}
    (sorted : (hs.map Handler.action).Pairwise (· < ·)) (fresh : ∀ g ∈ hs, g.action ≠ h.action) :
    ((place h hs).map Handler.action).Pairwise (· < ·) := by
  induction hs with
  | nil => simp [place]
  | cons k r ih =>
    simp only [List.map_cons, List.pairwise_cons, List.mem_map, forall_exists_index, and_imp,
      forall_apply_eq_imp_iff₂] at sorted
    simp only [place]
    split
    · rename_i less
      simp only [List.map_cons, List.pairwise_cons, List.mem_cons, List.mem_map]
      refine ⟨?_, ?_, sorted.2⟩
      · rintro a (rfl | ⟨g, hg, rfl⟩)
        · exact less
        · exact String.lt_trans less (sorted.1 g hg)
      · rintro a ⟨g, hg, rfl⟩
        exact sorted.1 g hg
    · rename_i notLess
      have less : k.action < h.action := by
        rcases Std.lt_trichotomy k.action h.action with l | e | l
        · exact l
        · exact absurd e (fresh k (by simp))
        · exact absurd l notLess
      simp only [List.map_cons, List.pairwise_cons, List.mem_map, forall_exists_index, and_imp,
        forall_apply_eq_imp_iff₂, mem_place]
      refine ⟨?_, ih sorted.2 fun g hg => fresh g (by simp [hg])⟩
      rintro g (rfl | hg)
      · exact less
      · exact sorted.1 g hg

theorem action_ne_of_not_contains {r : Registry} {action : String} (h : ¬r.contains action) :
    ∀ g ∈ r.handlers, g.action ≠ action := by
  simpa [contains] using h

/-- Adds a handler, unless its action has one. -/
def register (r : Registry) (h : Handler) : Except RegistryError Registry :=
  if taken : r.contains h.action then .error (.duplicateAction h.action)
  else .ok { r with
    handlers := place h r.handlers
    ascending := pairwise_place r.ascending (action_ne_of_not_contains taken) }

/-- Adds handlers in turn; one whose action is taken is left out. -/
def registerAll (r : Registry) (hs : List Handler) : Registry :=
  hs.foldl (fun r h => match r.register h with | .ok s => s | .error _ => r) r

/-- The handler of an action, if it has one. -/
def find? (r : Registry) (action : String) : Option Handler :=
  r.handlers.find? fun h => h.action == action

/-- The handler of an action, or the code that a call of it is refused with. -/
def lookup (r : Registry) (action : String) : Except ErrorCode Handler :=
  match r.find? action with
  | some h => .ok h
  | none => .error (if r.version.knows action then .notSupported else .notImplemented)

/-- The actions that have handlers, ascending. -/
def actions (r : Registry) : List String :=
  r.handlers.map Handler.action

/-- How many actions have handlers. -/
def size (r : Registry) : Nat :=
  r.handlers.length

/-- Whether no action has a handler. -/
def isEmpty (r : Registry) : Bool :=
  r.handlers.isEmpty

end Registry

end ChargeLink

import ChargeLink.Schema.Validate
import Mathlib.Data.Nat.Notation

/-!
# What a broken rule is reported as

The rules broken within a value form a tree, whose leaves are never missing: a
member appears in it only with a breach somewhere below. So a value that breaks
a rule is reported with a path, the rule, and the part of the value at fault.

* `PayloadType.validate_eq_some`: the fault of a value names one of its parts and a rule it breaks.
-/

namespace ChargeLink

/-- The value is a part of another, or the other itself. -/
inductive Value.Part : Value → Value → Prop
  | self (v : Value) : Part v v
  | member {v w : Value} {key : String} {members : List (String × Value)}
      (mem : (key, w) ∈ members) (part : Part v w) : Part v (.record members)
  | item {v w : Value} {items : List Value} (mem : w ∈ items) (part : Part v w) :
      Part v (.list items)

theorem Value.mem_of_lookup {key : String} {members : List (String × Value)} {v : Value}
    (h : Value.lookup key members = some v) : (key, v) ∈ members := by
  induction members with
  | nil => cases h
  | cons x r ih =>
    unfold Value.lookup at h
    split at h
    · rename_i same
      cases h
      rw [← eq_of_beq same]
      exact List.mem_cons_self
    · exact List.mem_cons_of_mem _ (ih h)

namespace MemberFault

variable {v : Value} {f : MemberFault} {path : String}

/-- A breach by a part of the value. -/
def Blames (v : Value) (b : Breach) : Prop :=
  ∃ rule w, Value.Part w v ∧ Rule.holds rule w = false ∧ b = ⟨rule.name, some w.encode⟩

/-- There are breaches, all of them by parts of the value. -/
def Tells (v : Value) (f : MemberFault) : Prop :=
  ∀ path, paths path f ≠ [] ∧ ∀ x ∈ paths path f, Blames v x.2

theorem Tells.mono {w : Value} (h : f.Tells v) (part : ∀ u, Value.Part u v → Value.Part u w) :
    f.Tells w := by
  intro path
  refine ⟨(h path).1, fun x hx => ?_⟩
  obtain ⟨rule, u, within, breaks, same⟩ := (h path).2 x hx
  exact ⟨rule, u, part u within, breaks, same⟩

/-- Where each part of a list has something to tell, so has the whole. -/
theorem append_tells {l r : List (String × Breach)} (nonempty : l ≠ [])
    (left : ∀ x ∈ l, Blames v x.2) (right : ∀ x ∈ r, Blames v x.2) :
    l ++ r ≠ [] ∧ ∀ x ∈ l ++ r, Blames v x.2 :=
  ⟨List.append_ne_nil_of_left_ne_nil nonempty r, List.forall_mem_append.2 ⟨left, right⟩⟩

theorem recordPaths_tells {faults : List (String × MemberFault)} (nonempty : faults ≠ [])
    (h : ∀ x ∈ faults, x.2.Tells v) (path : String) :
    recordPaths path faults ≠ [] ∧ ∀ x ∈ recordPaths path faults, Blames v x.2 := by
  induction faults with
  | nil => exact absurd rfl nonempty
  | cons x r ih =>
    obtain ⟨here, there⟩ := List.forall_mem_cons.1 h
    obtain ⟨first, blames⟩ := here (joined path (wireName x.1))
    rw [recordPaths]
    refine append_tells first blames ?_
    by_cases last : r = []
    · rw [last, recordPaths]
      simp
    · exact (ih last there).2

theorem listPaths_tells {faults : List (ℕ × String × MemberFault)} (nonempty : faults ≠ [])
    (h : ∀ x ∈ faults, x.2.2.Tells v) (path : String) :
    listPaths path faults ≠ [] ∧ ∀ x ∈ listPaths path faults, Blames v x.2 := by
  induction faults with
  | nil => exact absurd rfl nonempty
  | cons x r ih =>
    obtain ⟨here, there⟩ := List.forall_mem_cons.1 h
    obtain ⟨first, blames⟩ := here (joined (atIndex path x.1) (wireName x.2.1))
    rw [listPaths]
    refine append_tells first blames ?_
    by_cases last : r = []
    · rw [last, listPaths]
      simp
    · exact (ih last there).2

theorem atIndex_toList (path : String) (i : ℕ) :
    (atIndex path i).toList = path.toList ++ '[' :: (Nat.toDigits 10 i ++ [']']) := by
  simp [atIndex, Nat.toString_eq_repr, Nat.repr, String.toList_ofList]

theorem smallest_eq_none {l : List (String × Breach)} (h : smallest l = none) : l = [] := by
  cases l with
  | nil => rfl
  | cons x r =>
    unfold smallest at h
    split at h
    · split at h <;> cases h
    · cases h

theorem mem_of_smallest {l : List (String × Breach)} {x : String × Breach}
    (h : smallest l = some x) : x ∈ l := by
  induction l generalizing x with
  | nil => cases h
  | cons y r ih =>
    unfold smallest at h
    split at h
    · rename_i found
      split at h
      · cases h
        exact List.mem_cons_of_mem _ (ih found)
      · cases h
        exact List.mem_cons_self
    · cases h
      exact List.mem_cons_self

end MemberFault

namespace Shape

open MemberFault

/-- A member's own breaches are its own. -/
theorem broken_tells {rules : List Rule} {v : Value} (nonempty : Rule.breaches rules v ≠ []) :
    (MemberFault.broken (Rule.breaches rules v)).Tells v := by
  intro path
  rw [paths]
  refine ⟨by simpa using nonempty, fun x hx => ?_⟩
  obtain ⟨b, hb, rfl⟩ := List.mem_map.1 hx
  obtain ⟨rule, broken, rfl⟩ := List.mem_map.1 hb
  exact ⟨rule, v, .self v, by simpa using (List.mem_filter.1 broken).2, rfl⟩

/-- The breaches in a list are those of its records. -/
theorem listFaults_tells {check : List (String × Value) → List (String × MemberFault)}
    (each : ∀ given, ∀ x ∈ check given, x.2.Tells (.record given)) (items : List Value) :
    ∀ x ∈ listFaults check items, x.2.2.Tells (.list items) := by
  intro x hx
  obtain ⟨⟨v, i⟩, mem, hx⟩ := List.mem_flatMap.1 hx
  have mem : v ∈ items := List.fst_mem_of_mem_zipIdx mem
  cases v with
  | record given =>
    obtain ⟨y, hy, rfl⟩ := List.mem_map.1 hx
    exact (each given y hy).mono fun u part => .item mem part
  | _ => cases hx

mutual
/-- The breaches within a value are those of its parts. -/
theorem innerFault_tells (s : Shape) (v : Value) (f : MemberFault) (h : innerFault s v = some f) :
    f.Tells v := by
  cases s with
  | record name members =>
    cases v with
    | record given =>
      have each := recordFaults_tells members given
      rw [innerFault] at h
      split at h
      · cases h
      · rename_i nonempty
        cases h
        exact fun path => recordPaths_tells nonempty each path
    | _ => cases h
  | list item =>
    cases item with
    | record name members =>
      cases v with
      | list items =>
        have each := listFaults_tells (recordFaults_tells members) items
        rw [innerFault] at h
        split at h
        · cases h
        · rename_i nonempty
          cases h
          exact fun path => listPaths_tells nonempty each path
      | _ => cases h
    | _ => cases h
  | _ => cases h
termination_by structural s

theorem recordFaults_tells (ms : List (Member × Shape)) (given : List (String × Value)) :
    ∀ x ∈ recordFaults ms given, x.2.Tells (.record given) := by
  cases ms with
  | nil => simp [recordFaults]
  | cons x r =>
    obtain ⟨m, shape⟩ := x
    rw [recordFaults]
    refine List.forall_mem_append.2 ⟨?_, recordFaults_tells r given⟩
    split
    · simp
    · rename_i v found
      have within : ∀ u, Value.Part u v → Value.Part u (.record given) :=
        fun u part => .member (Value.mem_of_lookup found) part
      split
      · intro x hx
        obtain ⟨f, hf, rfl⟩ := List.mem_map.1 hx
        exact (innerFault_tells shape v f (by simpa using hf)).mono within
      · rename_i breaches nonempty
        intro x hx
        cases List.mem_singleton.1 hx
        exact (broken_tells nonempty).mono within
termination_by structural ms
end

end Shape

namespace PayloadType

/-- **A value that breaks a rule is reported** with the path of one of its parts, the rule that the
part breaks, and its payload. -/
theorem validate_eq_some {t : PayloadType} {v : Value} {fault : PayloadFault}
    (h : t.validate v = some fault) : ∃ path rule w, Value.Part w v ∧ Rule.holds rule w = false ∧
      fault = ⟨.propertyConstraintViolation, some path, some rule.name, some w.encode,
        path ++ " violates " ++ rule.name⟩ := by
  unfold validate at h
  split at h
  · cases h
  rename_i nonempty
  cases h
  cases v with
  | record given =>
    obtain ⟨nonempty, blames⟩ :=
      MemberFault.recordPaths_tells nonempty (Shape.recordFaults_tells t.members given) ""
    cases found : MemberFault.smallest (MemberFault.recordPaths "" (t.faults (.record given))) with
    | none => exact absurd (MemberFault.smallest_eq_none found) nonempty
    | some x =>
      obtain ⟨path, b⟩ := x
      obtain ⟨rule, w, part, breaks, same⟩ := blames _ (MemberFault.mem_of_smallest found)
      refine ⟨path, rule, w, part, breaks, ?_⟩
      -- no rule is about a member that is missing
      have other : rule.name ≠ "required" := by cases rule <;> simp [Rule.name]
      cases same
      simp [MemberFault.report, found, other]
  | _ => exact absurd rfl nonempty

end PayloadType

end ChargeLink

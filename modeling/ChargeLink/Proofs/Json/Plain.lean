import ChargeLink.Json.Value
import Mathlib.Data.Nat.Notation
import Mathlib.Order.Lattice

/-!
# Objects and plain values

What `Json.insert` and `Json.sorted` do to the members of an object, and `Plain`
values: those that a reader of JSON can give back, with canonical objects,
integers of 64 bits, doubles of a kind that is left open, and limited nesting.
-/

namespace ChargeLink

/-! ## Objects -/

namespace Json

variable {key other : String} {v : Json} {l : List (String × Json)}

theorem mem_of_lookup (h : lookup key l = some v) : (key, v) ∈ l := by
  induction l with
  | nil => cases h
  | cons x r ih =>
    unfold lookup at h
    split at h
    · rename_i same
      cases h
      rw [← eq_of_beq same]
      exact List.mem_cons_self
    · exact List.mem_cons_of_mem _ (ih h)

theorem isSome_lookup : (lookup key l).isSome ↔ key ∈ l.map Prod.fst := by
  induction l with
  | nil => simp [lookup]
  | cons x r ih =>
    unfold lookup
    split
    · rename_i same
      simp [eq_of_beq same]
    · rename_i other
      have : key ≠ x.1 := fun same => other (beq_iff_eq.2 same.symm)
      simp [ih, this]

theorem lookup_insert_self (key : String) (v : Json) (l : List (String × Json)) :
    lookup key (insert key v l) = some v := by
  induction l with
  | nil => simp [insert, lookup]
  | cons x r ih =>
    obtain ⟨k, w⟩ := x
    unfold insert
    split
    · simp [lookup]
    · split
      · rename_i less
        have : (k == key) = false := by simpa using (String.ne_of_lt less)
        simp [lookup, this, ih]
      · simp [lookup]

theorem lookup_insert_of_ne (h : other ≠ key) (v : Json) (l : List (String × Json)) :
    lookup other (insert key v l) = lookup other l := by
  have hk : (key == other) = false := by simpa using h.symm
  induction l with
  | nil => simp [insert, lookup, hk]
  | cons x r ih =>
    obtain ⟨k, w⟩ := x
    unfold insert
    split
    · simp [lookup, hk]
    · split
      · simp [lookup, ih]
      · rename_i notLess notGreater
        have same : k = key := by
          rcases Std.lt_trichotomy k key with less | same | greater
          · exact absurd less notGreater
          · exact same
          · exact absurd greater notLess
        simp [lookup, hk, same]

/-- Sorting members with distinct keys changes no member. -/
theorem lookup_sorted (key : String) {l : List (String × Json)}
    (distinct : (l.map Prod.fst).Nodup) : lookup key (sorted l) = lookup key l := by
  -- the members sorted so far come after those still to be sorted
  have general : ∀ (l acc : List (String × Json)), (l.map Prod.fst).Nodup →
      lookup key (l.foldl (fun acc x => insert x.1 x.2 acc) acc) =
        (lookup key l).or (lookup key acc) := by
    intro l
    induction l with
    | nil => intro acc _; rfl
    | cons x r ih =>
      intro acc distinct
      obtain ⟨k, w⟩ := x
      rw [List.map_cons, List.nodup_cons] at distinct
      rw [List.foldl_cons, ih _ distinct.2]
      by_cases same : k = key
      · subst same
        have absent : lookup k r = none := by
          have fresh := distinct.1
          clear ih distinct
          induction r with
          | nil => rfl
          | cons y s ih =>
            simp only [List.map_cons, List.mem_cons, not_or] at fresh
            have : (y.1 == k) = false := by simpa using fun h => fresh.1 h.symm
            simp [lookup, this, ih fresh.2]
        rw [absent, lookup_insert_self]
        simp [lookup]
      · have hk : (k == key) = false := by simpa using same
        rw [lookup_insert_of_ne (fun h => same h.symm)]
        simp [lookup, hk]
  rw [sorted, general l [] distinct]
  simp [lookup]

/-- What is true of the new member and of the others is true of all. -/
theorem forall_mem_insert {P : String × Json → Prop} (new : P (key, v)) (old : ∀ x ∈ l, P x) :
    ∀ x ∈ insert key v l, P x := by
  induction l with
  | nil => simpa [insert] using new
  | cons y r ih =>
    obtain ⟨k, w⟩ := y
    obtain ⟨head, tail⟩ := List.forall_mem_cons.1 old
    unfold insert
    split
    · exact List.forall_mem_cons.2 ⟨new, old⟩
    · split
      · exact List.forall_mem_cons.2 ⟨head, ih tail⟩
      · exact List.forall_mem_cons.2 ⟨new, tail⟩

theorem forall_mem_sorted {P : String × Json → Prop} (h : ∀ x ∈ l, P x) : ∀ x ∈ sorted l, P x := by
  have general : ∀ (l acc : List (String × Json)), (∀ x ∈ l, P x) → (∀ x ∈ acc, P x) →
      ∀ x ∈ l.foldl (fun acc x => insert x.1 x.2 acc) acc, P x := by
    intro l
    induction l with
    | nil => exact fun acc _ hacc => hacc
    | cons x r ih =>
      intro acc hl hacc
      obtain ⟨head, tail⟩ := List.forall_mem_cons.1 hl
      exact ih _ tail (forall_mem_insert head hacc)
  exact general l [] h (by simp)

/-- A new member stands at its place by key. -/
theorem ascending_insert (h : (l.map Prod.fst).Pairwise (· < ·)) (key : String) (v : Json) :
    ((insert key v l).map Prod.fst).Pairwise (· < ·) := by
  induction l with
  | nil => simp [insert]
  | cons y r ih =>
    obtain ⟨k, w⟩ := y
    obtain ⟨above, rest⟩ := List.pairwise_cons.1 h
    -- the keys ascend, so the first one is the least
    have above' : ∀ x ∈ r, k < x.1 := fun x hx => above _ (List.mem_map_of_mem hx)
    unfold insert
    split
    · rename_i less
      refine List.pairwise_cons.2 ⟨?_, h⟩
      refine List.forall_mem_cons.2 ⟨less, fun k' hk' => String.lt_trans less (above k' hk')⟩
    · split
      · rename_i less
        refine List.pairwise_cons.2 ⟨?_, ih rest⟩
        have := forall_mem_insert (P := fun x => k < x.1) (v := v) less above'
        simpa using this
      · rename_i notLess notGreater
        have same : k = key := by
          rcases Std.lt_trichotomy k key with less | same | greater
          · exact absurd less notGreater
          · exact same
          · exact absurd greater notLess
        exact same ▸ h

theorem ascending_sorted (l : List (String × Json)) :
    ((sorted l).map Prod.fst).Pairwise (· < ·) := by
  have general : ∀ (l acc : List (String × Json)), (acc.map Prod.fst).Pairwise (· < ·) →
      ((l.foldl (fun acc x => insert x.1 x.2 acc) acc).map Prod.fst).Pairwise (· < ·) := by
    intro l
    induction l with
    | nil => exact fun acc hacc => hacc
    | cons x r ih => exact fun acc hacc => ih _ (ascending_insert hacc x.1 x.2)
  exact general l [] .nil

end Json

/-! ## Plain values -/

namespace Json

theorem canonicalItems_iff {l : List Json} : CanonicalItems l ↔ ∀ v ∈ l, v.Canonical := by
  induction l with
  | nil => exact iff_of_true trivial (List.forall_mem_nil _)
  | cons v r ih =>
    rw [List.forall_mem_cons, ← ih]
    exact Iff.rfl

theorem canonicalMembers_iff {l : List (String × Json)} :
    CanonicalMembers l ↔ ∀ x ∈ l, x.2.Canonical := by
  induction l with
  | nil => exact iff_of_true trivial (List.forall_mem_nil _)
  | cons x r ih =>
    rw [List.forall_mem_cons, ← ih]
    exact Iff.rfl

theorem depthItems_le {l : List Json} {n : ℕ} : depthItems l ≤ n ↔ ∀ v ∈ l, v.depth ≤ n := by
  induction l with
  | nil => exact iff_of_true (Nat.zero_le n) (List.forall_mem_nil _)
  | cons v r ih =>
    rw [List.forall_mem_cons, ← ih]
    exact Nat.max_le

theorem depthMembers_le {l : List (String × Json)} {n : ℕ} :
    depthMembers l ≤ n ↔ ∀ x ∈ l, x.2.depth ≤ n := by
  induction l with
  | nil => exact iff_of_true (Nat.zero_le n) (List.forall_mem_nil _)
  | cons x r ih =>
    rw [List.forall_mem_cons, ← ih]
    exact Nat.max_le

variable (D : Binary64 → Prop)

mutual
/-- Whole numbers have 64 bits, with or without a sign, and doubles satisfy `D`. -/
def Numbers : Json → Prop
  | int n => -0x8000000000000000 ≤ n ∧ n < 0x10000000000000000
  | float x => D x
  | arr items => NumbersItems items
  | obj members => NumbersMembers members
  | _ => True

/-- The numbers of all items. -/
def NumbersItems : List Json → Prop
  | [] => True
  | v :: r => Numbers v ∧ NumbersItems r

/-- The numbers of all members' values. -/
def NumbersMembers : List (String × Json) → Prop
  | [] => True
  | (_, v) :: r => Numbers v ∧ NumbersMembers r
end

/-- No double at all. -/
abbrev NoDouble : Binary64 → Prop :=
  fun _ => False

/-- Doubles that are numbers of the reals. -/
abbrev Finite : Binary64 → Prop :=
  fun x => x.isFinite = true

/-- Values that can be read back from their text. -/
structure Plain (depth : ℕ) (v : Json) : Prop where
  canonical : v.Canonical
  numbers : v.Numbers D
  shallow : v.depth ≤ depth

variable {D}

theorem numbersItems_iff {l : List Json} : NumbersItems D l ↔ ∀ v ∈ l, v.Numbers D := by
  induction l with
  | nil => exact iff_of_true trivial (List.forall_mem_nil _)
  | cons v r ih =>
    rw [List.forall_mem_cons, ← ih]
    exact Iff.rfl

theorem numbersMembers_iff {l : List (String × Json)} :
    NumbersMembers D l ↔ ∀ x ∈ l, x.2.Numbers D := by
  induction l with
  | nil => exact iff_of_true trivial (List.forall_mem_nil _)
  | cons x r ih =>
    rw [List.forall_mem_cons, ← ih]
    exact Iff.rfl

mutual
/-- Numbers with doubles of one kind have doubles of any wider kind. -/
theorem Numbers.imp {E : Binary64 → Prop} (wider : ∀ x, D x → E x) (v : Json)
    (h : v.Numbers D) : v.Numbers E := by
  cases v with
  | float x => exact wider x h
  | arr items => exact NumbersItems.imp wider items h
  | obj members => exact NumbersMembers.imp wider members h
  | int => exact h
  | null | bool | str => trivial
termination_by structural v

theorem NumbersItems.imp {E : Binary64 → Prop} (wider : ∀ x, D x → E x) (l : List Json)
    (h : NumbersItems D l) : NumbersItems E l := by
  cases l with
  | nil => trivial
  | cons v r => exact ⟨Numbers.imp wider v h.1, NumbersItems.imp wider r h.2⟩
termination_by structural l

theorem NumbersMembers.imp {E : Binary64 → Prop} (wider : ∀ x, D x → E x)
    (l : List (String × Json)) (h : NumbersMembers D l) : NumbersMembers E l := by
  cases l with
  | nil => trivial
  | cons x r =>
    obtain ⟨k, v⟩ := x
    exact ⟨Numbers.imp wider v h.1, NumbersMembers.imp wider r h.2⟩
termination_by structural l
end

namespace Plain

variable {n m : ℕ} {v : Json}

theorem imp {E : Binary64 → Prop} (h : v.Plain D n) (wider : ∀ x, D x → E x) : v.Plain E n :=
  ⟨h.canonical, h.numbers.imp wider, h.shallow⟩

theorem mono (h : v.Plain D n) (le : n ≤ m) : v.Plain D m :=
  ⟨h.canonical, h.numbers, Nat.le_trans h.shallow le⟩

theorem null : Json.null.Plain D n :=
  ⟨trivial, trivial, Nat.zero_le n⟩

theorem str (s : String) : (Json.str s).Plain D n :=
  ⟨trivial, trivial, Nat.zero_le n⟩

theorem bool (b : Bool) : (Json.bool b).Plain D n :=
  ⟨trivial, trivial, Nat.zero_le n⟩

theorem int {i : ℤ} (low : -0x8000000000000000 ≤ i) (high : i < 0x10000000000000000) :
    (Json.int i).Plain D n :=
  ⟨trivial, ⟨low, high⟩, Nat.zero_le n⟩

theorem float {x : Binary64} (h : D x) : (Json.float x).Plain D n :=
  ⟨trivial, h, Nat.zero_le n⟩

theorem arr {items : List Json} (h : ∀ v ∈ items, v.Plain D n) :
    (Json.arr items).Plain D (n + 1) where
  canonical := canonicalItems_iff.2 fun v hv => (h v hv).canonical
  numbers := numbersItems_iff.2 fun v hv => (h v hv).numbers
  shallow := Nat.succ_le_succ (depthItems_le.2 fun v hv => (h v hv).shallow)

/-- Plain members that ascend make a plain object. -/
theorem obj {members : List (String × Json)} (ascending : (members.map Prod.fst).Pairwise (· < ·))
    (h : ∀ x ∈ members, x.2.Plain D n) : (Json.obj members).Plain D (n + 1) where
  canonical := ⟨ascending, canonicalMembers_iff.2 fun x hx => (h x hx).canonical⟩
  numbers := numbersMembers_iff.2 fun x hx => (h x hx).numbers
  shallow := Nat.succ_le_succ (depthMembers_le.2 fun x hx => (h x hx).shallow)

theorem empty : Json.empty.Plain D (n + 1) :=
  obj .nil (List.forall_mem_nil _)

theorem object {members : List (String × Json)} (h : ∀ x ∈ members, x.2.Plain D n) :
    (Json.object members).Plain D (n + 1) :=
  obj (ascending_sorted members) (forall_mem_sorted h)

/-- The items of a plain array are plain, one level less deep. -/
theorem items {items : List Json} (h : (Json.arr items).Plain D (n + 1)) :
    ∀ v ∈ items, v.Plain D n := by
  obtain ⟨canonical, numbers, shallow⟩ := h
  intro v hv
  exact ⟨canonicalItems_iff.1 canonical v hv, numbersItems_iff.1 numbers v hv,
    depthItems_le.1 (Nat.le_of_succ_le_succ shallow) v hv⟩

/-- The members of a plain object are plain, one level less deep. -/
theorem members {members : List (String × Json)} (h : (Json.obj members).Plain D (n + 1)) :
    ∀ x ∈ members, x.2.Plain D n := by
  obtain ⟨⟨-, canonical⟩, numbers, shallow⟩ := h
  intro x hx
  exact ⟨canonicalMembers_iff.1 canonical x hx, numbersMembers_iff.1 numbers x hx,
    depthMembers_le.1 (Nat.le_of_succ_le_succ shallow) x hx⟩

theorem ascending {members : List (String × Json)} (h : (Json.obj members).Plain D n) :
    (members.map Prod.fst).Pairwise (· < ·) :=
  h.canonical.1

end Plain

end Json

end ChargeLink

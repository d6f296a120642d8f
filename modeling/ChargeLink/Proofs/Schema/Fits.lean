import ChargeLink.Proofs.Schema.RoundTrip
import ChargeLink.Proofs.Schema.Violations

/-!
# Values that can be written

Whatever else is in it, a value whose whole numbers have 32 bits and which does
not nest too deep has a payload that a reader takes; a double that is no number
becomes null. The values of a shape are such, and so is what is reported of a
payload that does not decode or breaks a rule.

* `Value.Fits.plain`: the payload of such a value is plain.
* `PayloadFault.details_plain`: so are the details of a fault that names such a value.
-/

namespace ChargeLink

open Json (Finite)

/-- Whole numbers have 32 bits, and at most so many records and lists enclose the innermost part. -/
def Value.Fits : ℕ → Value → Prop
  | _, .int n => -0x80000000 ≤ n ∧ n < 0x80000000
  | depth + 1, .list items => ∀ v ∈ items, v.Fits depth
  | depth + 1, .record members => ∀ x ∈ members, x.2.Fits depth
  | 0, .list _ => False
  | 0, .record _ => False
  | _, _ => True

theorem Value.mem_encodeMembers {given : List (String × Value)} {y : String × Json}
    (h : y ∈ encodeMembers given) : ∃ x ∈ given, y = (x.1, x.2.encode) := by
  induction given with
  | nil => cases h
  | cons x r ih =>
    rw [encodeMembers] at h
    rcases List.mem_cons.1 h with rfl | h
    · exact ⟨x, List.mem_cons_self, rfl⟩
    · obtain ⟨x, hx, same⟩ := ih h
      exact ⟨x, List.mem_cons_of_mem _ hx, same⟩

namespace Value.Fits

variable {v w : Value} {n m : ℕ}

theorem mono (h : v.Fits n) (le : n ≤ m) : v.Fits m := by
  induction n generalizing v m with
  | zero => cases v <;> cases m <;> simp_all [Fits]
  | succ n ih =>
    obtain ⟨m, rfl⟩ := Nat.exists_eq_add_of_le' (Nat.le_trans (Nat.succ_pos n) le)
    have le := Nat.le_of_succ_le_succ le
    cases v with
    | list items => exact fun v hv => ih (h v hv) le
    | record members => exact fun x hx => ih (h x hx) le
    | _ => exact h

/-- The parts of a value fit as the value does. -/
theorem part (h : v.Fits n) (part : Value.Part w v) : ∃ m, w.Fits m := by
  induction part generalizing n with
  | self => exact ⟨n, h⟩
  | member mem part ih =>
    cases n with
    | zero => exact h.elim
    | succ n => exact ih (h _ mem)
  | item mem part ih =>
    cases n with
    | zero => exact h.elim
    | succ n => exact ih (h _ mem)

/-- **The payload of a value that fits is plain.** -/
theorem plain (n : ℕ) (v : Value) (h : v.Fits n) : v.encode.Plain Finite n := by
  cases v with
  | text s => exact Json.Plain.str s
  | instant t => exact Json.Plain.str t.text
  | choice s => exact Json.Plain.str s
  | flag b => exact Json.Plain.bool b
  | int k =>
    obtain ⟨low, high⟩ : -0x80000000 ≤ k ∧ k < 0x80000000 := by simpa only [Fits] using h
    exact Json.Plain.int (by omega) (by omega)
  | real x =>
    simp only [encode, Json.double]
    split
    · rename_i finite
      exact Json.Plain.float finite
    · exact Json.Plain.null
  | list items =>
    cases n with
    | zero => exact h.elim
    | succ n =>
      rw [encode, Shape.encodeItems_eq]
      refine Json.Plain.arr fun j hj => ?_
      obtain ⟨v, hv, rfl⟩ := List.mem_map.1 hj
      exact plain n v (h v hv)
  | record members =>
    cases n with
    | zero => exact h.elim
    | succ n =>
      refine Json.Plain.object fun y hy => ?_
      obtain ⟨x, hx, rfl⟩ := mem_encodeMembers hy
      exact plain n x.2 (h x hx)
termination_by n

end Value.Fits

mutual
/-- The values of a shape fit into its depth. -/
theorem Shape.Typed.fits {D : Binary64 → Prop} (s : Shape) (v : Value) (h : Typed D s v) :
    v.Fits s.depth := by
  cases s with
  | list item =>
    cases v with
    | list items =>
      simp only [Admits] at h
      exact fun v hv => Typed.fits item v (h v hv)
    | _ => simp [Admits] at h
  | record name members =>
    cases v with
    | record given =>
      simp only [Admits] at h
      exact fun x hx => TypedMembers.fits members given h x hx
    | _ => simp [Admits] at h
  | int32 =>
    cases v with
    | int n =>
      simp only [Admits] at h
      exact h
    | _ => simp [Admits] at h
  | text | flag | real | instant | choice variants =>
    cases v <;> trivial
termination_by structural s

theorem Shape.TypedMembers.fits {D : Binary64 → Prop} (ms : List (Member × Shape))
    (given : List (String × Value)) (h : TypedMembers D ms given) :
    ∀ x ∈ given, x.2.Fits (depthMembers ms) := by
  cases ms with
  | nil =>
    simp only [AdmitsMembers] at h
    simp [h]
  | cons y r =>
    obtain ⟨m, shape⟩ := y
    simp only [AdmitsMembers] at h
    rcases h with ⟨-, h⟩ | ⟨v, rest, rfl, typed, h⟩
    · exact fun x hx => (TypedMembers.fits r given h x hx).mono (Nat.le_max_right ..)
    · refine List.forall_mem_cons.2 ⟨(Typed.fits shape v typed).mono (Nat.le_max_left ..), ?_⟩
      exact fun x hx => (TypedMembers.fits r rest h x hx).mono (Nat.le_max_right ..)
termination_by structural ms
end

/-! ## Details of faults -/

/-- The details of a fault are as plain as the value that they name. -/
theorem PayloadFault.details_plain {D : Binary64 → Prop} {n : ℕ} {f : PayloadFault}
    (value : ∀ v ∈ f.value, v.Plain D n) : f.details.Plain D (n + 1) := by
  refine Json.Plain.object fun x hx => ?_
  simp only [List.mem_append, Option.mem_toList, Option.map_eq_some_iff] at hx
  rcases hx with (⟨s, -, rfl⟩ | ⟨s, -, rfl⟩) | ⟨v, found, rfl⟩
  · exact Json.Plain.str s
  · exact Json.Plain.str s
  · exact value v found

/-- What does not decode is reported without a value. -/
theorem DecodeFault.value_report (fault : DecodeFault) : fault.report.value = none := by
  cases fault <;> rfl

/-- A rule is broken by a text or by a whole number. -/
theorem Rule.plain_of_breaks {rule : Rule} {v : Value} {n : ℕ} (fits : v.Fits n)
    (breaks : rule.holds v = false) : v.encode.Plain Finite 0 := by
  cases v with
  | text s => exact Json.Plain.str s
  | int k => exact Value.Fits.plain 0 _ (by simpa only [Value.Fits] using fits)
  | _ => cases rule <;> cases breaks

/-- The details of a violation are plain. -/
theorem PayloadType.details_plain {t : PayloadType} {v : Value} {n : ℕ} {fault : PayloadFault}
    (fits : v.Fits n) (broken : t.validate v = some fault) : fault.details.Plain Finite 1 := by
  obtain ⟨path, rule, w, part, breaks, rfl⟩ := PayloadType.validate_eq_some broken
  obtain ⟨m, fits⟩ := fits.part part
  refine PayloadFault.details_plain fun j hj => ?_
  rw [← Option.mem_some.1 hj]
  exact rule.plain_of_breaks fits breaks

end ChargeLink

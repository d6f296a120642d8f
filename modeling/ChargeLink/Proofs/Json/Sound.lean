import ChargeLink.Json.Reader
import ChargeLink.Proofs.Json.Plain

/-!
# What a reader gives is plain

A text may hold its members in any order and more than once, and numbers in any
spelling. What is read of it is canonical all the same: members are inserted at
their places, whole numbers have 64 bits, and a double that would be infinite is
refused.

* `Json.ofText?_plain`: what is read of a text is plain.
-/

namespace ChargeLink.Json

variable {cs r : List Char} {v : Json} {n : ℕ}

theorem isFinite_ofDecimal? {negative : Bool} {digits : ℕ} {exponent : ℤ} {x : Binary64}
    (h : Binary64.ofDecimal? negative digits exponent = some x) : x.isFinite = true := by
  unfold Binary64.ofDecimal? at h
  extract_lets size x' at h
  split at h
  · cases h
    cases negative <;> rfl
  split at h
  · cases h
  split at h
  · rename_i finite
    exact Option.some.inj h ▸ finite
  · cases h

theorem number?_plain {negative : Bool} {whole : List Char} {fraction : Option (List Char)}
    {exponent : Option ℤ} (h : number? negative whole fraction exponent = some v) :
    v.Plain Finite n := by
  have double : ∀ {digits e}, (Binary64.ofDecimal? negative digits e).map float = some v →
      v.Plain Finite n := by
    intro digits e h
    obtain ⟨x, hx, rfl⟩ := Option.map_eq_some_iff.1 h
    exact .float (isFinite_ofDecimal? hx)
  unfold number? at h
  extract_lets n' at h
  split at h
  · split at h
    · rename_i negative
      subst negative
      split at h
      · cases h
        exact .int (by omega) (by omega)
      · exact double h
    · rename_i positive
      rw [Bool.not_eq_true] at positive
      subst positive
      split at h
      · cases h
        exact .int (by omega) (by omega)
      · exact double h
  · exact double h

theorem readUnsigned_plain {negative : Bool} (h : readUnsigned negative cs = some (v, r)) :
    v.Plain Finite n := by
  simp only [readUnsigned, Option.bind_eq_bind, Option.bind_eq_some_iff, Option.pure_def,
    Option.some.injEq, Prod.mk.injEq] at h
  obtain ⟨_, _, _, _, _, _, _, number, rfl, _⟩ := h
  exact number?_plain number

/-! ## Arrays and objects -/

/-- What is read of a part is plain. -/
def Yields (n : ℕ) (read : List Char → Option (Json × List Char)) : Prop :=
  ∀ cs v r, read cs = some (v, r) → v.Plain Finite n

variable {read : List Char → Option (Json × List Char)}

theorem readItems_plain (item : Yields n read) {fuel : ℕ} {acc : List Json}
    (before : ∀ w ∈ acc, w.Plain Finite n) (h : readItems read fuel acc cs = some (v, r)) :
    v.Plain Finite (n + 1) := by
  induction fuel generalizing acc cs with
  | zero => cases h
  | succ fuel ih =>
    unfold readItems at h
    split at h
    · cases h
      exact .arr fun w hw => before w (List.mem_reverse.1 hw)
    · split at h
      · rename_i w _ next
        exact ih (List.forall_mem_cons.2 ⟨item _ w _ next, before⟩) h
      · cases h
    · cases h

theorem readMember_plain (item : Yields n read) {m : String × Json}
    (h : readMember read cs = some (m, r)) : m.2.Plain Finite n := by
  unfold readMember at h
  repeat' split at h
  all_goals cases h
  exact item _ _ _ ‹_›

theorem readMembers_plain (item : Yields n read) {fuel : ℕ} {acc : List (String × Json)}
    (ascending : (acc.map Prod.fst).Pairwise (· < ·)) (before : ∀ x ∈ acc, x.2.Plain Finite n)
    (h : readMembers read fuel acc cs = some (v, r)) : v.Plain Finite (n + 1) := by
  induction fuel generalizing acc cs with
  | zero => cases h
  | succ fuel ih =>
    unfold readMembers at h
    split at h
    · cases h
      exact .obj ascending before
    · split at h
      · rename_i key w _ next
        exact ih (ascending_insert ascending key w)
          (forall_mem_insert (readMember_plain item next) before) h
      · cases h
    · cases h

/-! ## Values -/

/-- **What is read of a text is plain.** -/
theorem readValue_plain (n : ℕ) : Yields n (readValue n) := by
  induction n using Nat.strongRecOn with
  | ind n ih =>
    intro cs v r h
    unfold readValue at h
    split at h
    · cases h
      exact .null
    · cases h
      exact .bool true
    · cases h
      exact .bool false
    · obtain ⟨⟨s, _⟩, _, same⟩ := Option.map_eq_some_iff.1 h
      cases same
      exact .str s
    · split at h
      · cases h
      · have item := ih _ (Nat.lt_succ_self _)
        split at h
        · cases h
          exact .arr (by simp)
        · split at h
          · rename_i w _ first
            exact readItems_plain item (by simpa using item _ _ _ first) h
          · cases h
    · split at h
      · cases h
      · have item := ih _ (Nat.lt_succ_self _)
        split at h
        · cases h
          exact .empty
        · split at h
          · rename_i m _ first
            exact readMembers_plain item (by simp)
              (by simpa using readMember_plain item first) h
          · cases h
    · exact readUnsigned_plain h
    · exact readUnsigned_plain h

theorem ofText?_plain {s : String} (h : ofText? s = some v) : v.Plain Finite maxDepth := by
  unfold ofText? ofCharsWithin? at h
  split at h
  · rename_i read
    split at h
    · cases h
      exact readValue_plain _ _ _ _ read
    · cases h
  · cases h

end ChargeLink.Json

import ChargeLink.Proofs.Binary64.Text
import ChargeLink.Proofs.Json.Tokens

/-!
# Doubles come back from their text

The text of a double is the numeral of its shortest decimal, written in one of
four ways. Whichever it is, its digits and its exponent stand for the decimal,
which rounds to the double.

* `Json.readValue_float`: a finite double is read back, with its sign.
-/

namespace ChargeLink

open Json

/-! ## The numeral of a decimal -/

/-- A decimal as it is written. -/
def Binary64.Decimal.numeral (d : Binary64.Decimal) : Numeral :=
  let ds := Nat.toDigits 10 d.digits
  let top : ℤ := d.exponent + ds.length - 1
  if Binary64.positionalFrom ≤ top ∧ top < Binary64.positionalBefore then
    if 0 ≤ d.exponent then ⟨ds ++ List.replicate d.exponent.toNat '0', some ['0'], none⟩
    else if 0 ≤ top then ⟨ds.take (top.toNat + 1), some (ds.drop (top.toNat + 1)), none⟩
    else ⟨['0'], some (List.replicate (-top - 1).toNat '0' ++ ds), none⟩
  else
    ⟨ds.take 1, if ds.length = 1 then none else some (ds.drop 1), some top⟩

/-- A double as it is written, without its sign. -/
def Binary64.numeral (x : Binary64) : Numeral :=
  if x.rank = 0 then ⟨['0'], some ['0'], none⟩ else x.shortest.numeral

namespace Json

/-- All digits of a numeral. -/
def Numeral.digits (n : Numeral) : List Char :=
  n.whole ++ n.fraction.getD []

end Json

namespace Binary64

variable {x : Binary64} {d : Decimal}

/-- The text of a double is its numeral. -/
theorem toList_unsignedText (x : Binary64) : x.unsignedText.toList = x.numeral.chars := by
  by_cases zero : x.rank = 0
  · simp only [unsignedText, numeral, if_pos zero]
    rfl
  have digits : Nat.toDigits 10 x.shortest.digits = (toString x.shortest.digits).toList := by
    rw [Nat.toString_eq_repr, Nat.repr, String.toList_ofList]
  have some : (toString x.shortest.digits).toList ≠ [] := digits ▸ Nat.toDigits_ne_nil
  simp only [unsignedText, numeral, Decimal.numeral, digits, String.length_toList, if_neg zero]
  generalize toString x.shortest.digits = t at *
  generalize x.shortest.exponent + t.length - 1 = top
  split
  · split
    · simp [Numeral.chars, Numeral.fractionChars, Numeral.exponentChars]
    split
    · simp [Numeral.chars, Numeral.fractionChars, Numeral.exponentChars]
    · simp [Numeral.chars, Numeral.fractionChars, Numeral.exponentChars]
  · have sign : (if top < 0 then "-" else "+").toList = [if top < 0 then '-' else '+'] := by
      split <;> rfl
    rw [← String.length_toList]
    cases shown : t.toList with
    | nil => exact absurd shown some
    | cons c r =>
      -- a single digit has no point
      cases r with
      | nil => simp [Numeral.chars, Numeral.fractionChars, Numeral.exponentChars, sign]
      | cons e r => simp [Numeral.chars, Numeral.fractionChars, Numeral.exponentChars, sign]

theorem Decimal.numeral_sound (positive : 0 < d.digits) : d.numeral.Sound := by
  have digits := digits_toDigits d.digits
  have head := head_toDigits positive
  have nonempty : 0 < (Nat.toDigits 10 d.digits).length := Nat.length_toDigits_pos
  simp only [Decimal.numeral]
  generalize Nat.toDigits 10 d.digits = ds at *
  have takeHead : ∀ n, (ds.take (n + 1)).head? ≠ some '0' := by
    intro n
    rwa [List.head?_take, if_neg (by omega)]
  split
  · split
    · refine ⟨digits.append (isDigit_zeros _), fun zero => ?_, fun f hf => ?_⟩
      · rw [List.head?_append_of_ne_nil _ digits.some] at zero
        exact absurd zero head
      · cases hf
        exact digits_zero
    split
    · refine ⟨digits.take _, fun zero => absurd zero (takeHead _), fun f hf => ?_⟩
      cases hf
      exact digits.drop (by omega)
    · refine ⟨digits_zero, fun _ => rfl, fun f hf => ?_⟩
      cases hf
      exact ⟨List.append_ne_nil_of_right_ne_nil _ digits.some, fun c hc =>
        (List.mem_append.1 hc).elim (isDigit_zeros _ c) (digits.all c)⟩
  · refine ⟨digits.take 0, fun zero => absurd zero (takeHead 0), fun f hf => ?_⟩
    dsimp only at hf
    split at hf
    · cases hf
    · cases hf
      exact digits.drop (by omega)

theorem numeral_sound (x : Binary64) : x.numeral.Sound := by
  unfold numeral
  split
  · refine ⟨digits_zero, fun _ => rfl, fun f hf => ?_⟩
    cases hf
    exact digits_zero
  · rename_i positive
    exact Decimal.numeral_sound (digits_shortest (Nat.pos_of_ne_zero positive))

/-- The digits of the numeral with its exponent are the decimal. -/
theorem Decimal.numeral_value (d : Decimal) :
    (digitsValue d.numeral.digits : ℚ) *
      10 ^ (d.numeral.exponent.getD 0 - (d.numeral.fraction.getD []).length : ℤ) = d.toRat := by
  have value := digitsValue_toDigits d.digits
  have nonempty : 0 < (Nat.toDigits 10 d.digits).length := Nat.length_toDigits_pos
  simp only [Decimal.numeral, Decimal.toRat, Numeral.digits]
  generalize Nat.toDigits 10 d.digits = ds at *
  split
  · split
    · -- the zeros up to the point, and the one after it
      have zeros : digitsValue (List.replicate d.exponent.toNat '0' ++ ['0']) = 0 := by
        rw [← List.replicate_succ', digitsValue_zeros]
      rw [Option.getD_some, List.append_assoc, digitsValue_append, zeros, value, List.length_append,
        List.length_replicate, Nat.add_zero, Nat.cast_mul, mul_assoc, Nat.cast_pow, ← zpow_natCast,
        Nat.cast_ofNat, ← zpow_add₀ (by norm_num)]
      congr 2
      simp only [Option.getD_none, List.length_cons, List.length_nil]
      omega
    split
    · rw [Option.getD_some, List.take_append_drop, value, List.length_drop]
      congr 2
      simp only [Option.getD_none]
      omega
    · have zeros : ∀ n, digitsValue (['0'] ++ (List.replicate n '0' ++ ds)) = d.digits := by
        intro n
        rw [← List.append_assoc, digitsValue_append, value]
        show digitsValue (List.replicate (n + 1) '0') * _ + _ = _
        rw [digitsValue_zeros, Nat.zero_mul, Nat.zero_add]
      rw [Option.getD_some, zeros, List.length_append, List.length_replicate]
      congr 2
      simp only [Option.getD_none]
      omega
  · dsimp only
    split
    · rename_i one
      rw [Option.getD_none, List.append_nil, List.take_of_length_le (by omega), value]
      congr 2
      simp only [Option.getD_some, List.length_nil]
      omega
    · rw [Option.getD_some, List.take_append_drop, value, List.length_drop]
      congr 2
      simp only [Option.getD_some]
      omega

end Binary64

namespace Json

variable {x : Binary64} {r : List Char}

/-- A number with a point or an exponent is read as a double. -/
theorem number?_point {n : Numeral} (negative : Bool)
    (point : n.fraction.isSome = true ∨ n.exponent.isSome = true) :
    number? negative n.whole n.fraction n.exponent =
      (Binary64.ofDecimal? negative (digitsValue n.digits)
        (n.exponent.getD 0 - (n.fraction.getD []).length)).map float := by
  obtain ⟨whole, fraction, exponent⟩ := n
  cases fraction with
  | some f => rfl
  | none =>
    cases exponent with
    | some e => rfl
    | none => simp at point

theorem numeral_point (d : Binary64.Decimal) :
    d.numeral.fraction.isSome = true ∨ d.numeral.exponent.isSome = true := by
  simp only [Binary64.Decimal.numeral]
  split
  · split
    · exact .inl rfl
    · split <;> exact .inl rfl
  · exact .inr rfl

/-- The numeral of a finite double stands for it. -/
theorem number?_numeral (finite : x.isFinite = true) :
    number? x.negative x.numeral.whole x.numeral.fraction x.numeral.exponent = some (.float x) := by
  unfold Binary64.numeral
  split
  · rename_i zero
    have same : Binary64.zero x.negative = x := by
      obtain ⟨negative, rank, inRange⟩ := x
      cases zero
      rfl
    have digits : digitsValue (Numeral.digits ⟨['0'], some ['0'], none⟩) = 0 := rfl
    rw [number?_point _ (.inl rfl), digits, Binary64.ofDecimal?, if_pos (.inl rfl), same]
    rfl
  · rename_i positive
    have positive := Nat.pos_of_ne_zero positive
    have rounds := Binary64.shortest_rounds positive
    rw [← Binary64.Decimal.numeral_value] at rounds
    rw [number?_point _ (numeral_point _), Binary64.ofDecimal?_of_rounds finite positive rounds]
    rfl

/-- The text of a finite double is its numeral, after a sign if it is negative. -/
theorem toList_text (finite : x.isFinite = true) :
    x.text.toList = if x.negative then '-' :: x.numeral.chars else x.numeral.chars := by
  have number : x.isNaN = false := by
    simp only [Binary64.isFinite, Binary64.isNaN, decide_eq_true_eq, beq_eq_false_iff_ne] at *
    omega
  simp only [Binary64.text, number, finite, if_true, ← Binary64.toList_unsignedText]
  cases x.negative <;> simp

/-- **A finite double is read back from its text**, whatever stops it. -/
theorem readValue_float (finite : x.isFinite = true) (d : ℕ) (stops : Stops r) :
    readValue d (x.text.toList ++ r) = some (.float x, r) := by
  have sound := Binary64.numeral_sound x
  have number := number?_numeral finite
  rw [toList_text finite]
  split
  · rename_i negative
    rw [negative] at number
    rw [List.cons_append, readValue_minus, readUnsigned_chars _ sound stops, number]
    rfl
  · rename_i positive
    rw [Bool.eq_false_iff.2 positive] at number
    rw [readValue_chars sound, readUnsigned_chars _ sound stops, number]
    rfl

end Json

end ChargeLink

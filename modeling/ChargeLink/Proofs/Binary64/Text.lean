import ChargeLink.Binary64.Text
import ChargeLink.Proofs.Binary64.Shortest

/-!
# Reading a decimal near a double

A decimal that rounds to a finite double is read as that double: it is neither
so small nor so large that the reader would not look at it.

* `Binary64.ofDecimal?_of_rounds`: the decimal is read as the double, with the sign given.
-/

namespace ChargeLink.Binary64

variable {x : Binary64} {v : ℚ}

/-- A number is between the powers of ten that its digits stand for. -/
theorem toDigits_bounds {n : ℕ} (positive : 0 < n) :
    10 ^ ((Nat.toDigits 10 n).length - 1) ≤ n ∧ n < 10 ^ (Nat.toDigits 10 n).length := by
  have some : 0 < (Nat.toDigits 10 n).length := Nat.length_toDigits_pos
  refine ⟨?_, (Nat.length_toDigits_le_iff (by decide) some).1 (Nat.le_refl _)⟩
  generalize length : (Nat.toDigits 10 n).length = l at *
  match l, some with
  | 1, _ => exact Nat.succ_le_of_lt positive
  | l + 2, _ =>
    have more := (Nat.length_toDigits_le_iff (n := n) (b := 10) (by decide) (Nat.succ_pos l)).not.1
      (by omega)
    exact Nat.not_lt.1 more

/-- The size of a decimal whose value is bounded by powers of ten. -/
theorem size_bounds {n : ℕ} (positive : 0 < n) (e : ℤ) :
    (10 : ℚ) ^ ((Nat.toDigits 10 n).length + e - 1) ≤ n * 10 ^ e ∧
      (n * 10 ^ e : ℚ) < 10 ^ ((Nat.toDigits 10 n).length + e) := by
  have some : 0 < (Nat.toDigits 10 n).length := Nat.length_toDigits_pos
  obtain ⟨low, high⟩ := toDigits_bounds positive
  have low : (10 : ℚ) ^ ((Nat.toDigits 10 n).length - 1) ≤ n := by exact_mod_cast low
  have high : (n : ℚ) < 10 ^ (Nat.toDigits 10 n).length := by exact_mod_cast high
  generalize (Nat.toDigits 10 n).length = l at *
  constructor
  · rw [show (l : ℤ) + e - 1 = ((l - 1 : ℕ) : ℤ) + e by omega, zpow_add₀ (by norm_num), zpow_natCast]
    gcongr
  · rw [zpow_add₀ (by norm_num), zpow_natCast]
    gcongr

/-- What rounds to a finite double is not too small and not too large for the reader. -/
theorem Rounds.bounds (h : x.Rounds v) (finite : x.isFinite = true) (positive : 0 < x.rank) :
    (10 : ℚ) ^ (-330 : ℤ) ≤ v ∧ v < 10 ^ (309 : ℤ) := by
  have splits := significand_splits x
  have greatest := splits.greatest (by simpa [isFinite] using finite)
  have least := splits.least
  have unit : (0 : ℚ) < 2 ^ (x.significand.2 - 2) := by positivity
  have m : (1 : ℚ) ≤ x.significand.1 := by exact_mod_cast splits.positive positive
  have small : (4 * x.significand.1 + 2 : ℚ) ≤ 2 ^ 55 := by
    have := splits.small
    simp only [binade] at this
    have : 4 * x.significand.1 + 2 ≤ 2 ^ 55 := by omega
    exact_mod_cast this
  have gap : (x.lowGap : ℚ) ≤ 2 := by exact_mod_cast x.lowGap_le
  constructor
  · calc (10 : ℚ) ^ (-330 : ℤ) ≤ 2 ^ (-1076 : ℤ) := by
          have : 2 ^ 1076 ≤ 10 ^ 330 := by decide +kernel
          rw [zpow_neg, zpow_neg]
          exact inv_anti₀ (by positivity) (by exact_mod_cast this)
      _ ≤ 2 ^ (x.significand.2 - 2) := zpow_le_zpow_right₀ one_le_two (by omega)
      _ ≤ v := le_trans (by nlinarith) h.low
  · calc v ≤ 2 ^ 55 * 2 ^ (x.significand.2 - 2) := h.high.trans (by gcongr)
      _ = 2 ^ (x.significand.2 + 53) := (power_quarters 55 (by omega)).symm
      _ ≤ 2 ^ (1024 : ℤ) := zpow_le_zpow_right₀ one_le_two (by omega)
      _ < 10 ^ (309 : ℤ) := by
          have : 2 ^ 1024 < 10 ^ 309 := by decide +kernel
          exact_mod_cast this

theorem ofRatio_of_rounds {num den : ℕ} (finite : x.isFinite = true) (hn : 0 < num) (hd : 0 < den)
    (rounds : x.Rounds (num / den)) (negative : Bool) :
    ofRatio negative num den = ⟨negative, x.rank, x.inRange⟩ := by
  have finite : x.rank < infinityRank := by simpa [isFinite] using finite
  simp only [ofRatio, ofRank, rankOfRatio_of_rounds hn hd rounds, Nat.min_eq_left finite.le]

/-- **A decimal that rounds to a finite double is read as it**, with the sign given. -/
theorem ofDecimal?_of_rounds {digits : ℕ} {exponent : ℤ} (finite : x.isFinite = true)
    (positive : 0 < x.rank) (rounds : x.Rounds (digits * 10 ^ exponent)) (negative : Bool) :
    ofDecimal? negative digits exponent = some ⟨negative, x.rank, x.inRange⟩ := by
  obtain ⟨low, high⟩ := rounds.bounds finite positive
  have hd : 0 < digits := by
    exact_mod_cast pos_of_mul_pos_left (rounds.pos positive) (by positivity)
  obtain ⟨from_, to_⟩ := size_bounds hd exponent
  have length : (toString digits).length = (Nat.toDigits 10 digits).length := by
    rw [Nat.toString_eq_repr, Nat.repr, String.length_ofList]
  have notSmall := (zpow_lt_zpow_iff_right₀ (by norm_num)).1 (low.trans_lt to_)
  have notLarge := (zpow_lt_zpow_iff_right₀ (by norm_num)).1 (from_.trans_lt high)
  have read : (if 0 ≤ exponent then ofRatio negative (digits * Nat.pow 10 exponent.toNat) 1
      else ofRatio negative digits (Nat.pow 10 (-exponent).toNat)) =
      ⟨negative, x.rank, x.inRange⟩ := by
    split
    · rename_i whole
      refine ofRatio_of_rounds finite (Nat.mul_pos hd (Nat.pow_pos (by decide))) Nat.one_pos ?_ _
      rwa [Nat.cast_mul, ten_zpow_toNat whole, Nat.cast_one, div_one]
    · rename_i fraction
      refine ofRatio_of_rounds finite hd (Nat.pow_pos (by decide)) ?_ _
      rwa [ten_zpow_toNat (e := -exponent) (by omega), zpow_neg, div_inv_eq_mul]
  have finite' : isFinite ⟨negative, x.rank, x.inRange⟩ = true := finite
  simp only [ofDecimal?, length, read, finite', if_true]
  rw [if_neg (by omega), if_neg (by omega)]

end ChargeLink.Binary64

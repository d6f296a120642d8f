import ChargeLink.Binary64.Shortest
import Mathlib.Algebra.Order.Field.Power
import Mathlib.Data.Rat.Cast.Order
import Mathlib.Tactic.FieldSimp
import Mathlib.Tactic.Linarith
import Mathlib.Tactic.NormNum
import Mathlib.Tactic.Ring

/-!
# The nearest double

Rounding in exact rational arithmetic. `Rounds x v` says that `v` lies in the
interval of reals around a finite double that round to it; its ends belong to it
if the significand is even.

* `Binary64.rankOfRatio_of_rounds`: a ratio in the interval has the rank of the double.
-/

namespace ChargeLink.Binary64

/-! ## Significands -/

/-- The parts of a rank: `m` units of `2 ^ e`. -/
structure Splits (rank m : ℕ) (e : ℤ) : Prop where
  rank : (rank : ℤ) = (e + 1074) * binade + m
  least : -1074 ≤ e
  small : m < 2 * binade
  normal : e = -1074 ∨ binade ≤ m

theorem significand_splits (x : Binary64) : Splits x.rank x.significand.1 x.significand.2 := by
  unfold significand
  split
  · rename_i low
    exact ⟨by simp, by simp, by simp only [binade] at *; omega, .inl rfl⟩
  · constructor <;> simp only [binade] at * <;> omega

variable {rank m : ℕ} {e : ℤ}

theorem Splits.positive (h : Splits rank m e) (positive : 0 < rank) : 0 < m := by
  obtain ⟨rank, least, small, rfl | normal⟩ := h <;> omega

theorem Splits.greatest (h : Splits rank m e) (finite : rank < infinityRank) : e ≤ 971 := by
  obtain ⟨rank, least, small, normal⟩ := h
  simp only [infinityRank, binade] at *
  omega

/-! ## Rounding quotients -/

/-- A number is the rounded quotient if it is at most one half away, and nearer if it is odd. -/
theorem roundDiv_eq {num den q : ℕ} (positive : 0 < den) (low : (q : ℚ) - 1 / 2 ≤ num / den)
    (high : (num / den : ℚ) ≤ q + 1 / 2)
    (tie : q % 2 = 1 → (q : ℚ) - 1 / 2 < num / den ∧ (num / den : ℚ) < q + 1 / 2) :
    roundDiv num den = q := by
  have hd : (0 : ℚ) < den := by exact_mod_cast positive
  rw [le_div_iff₀ hd] at low
  rw [div_le_iff₀ hd] at high
  rw [lt_div_iff₀ hd, div_lt_iff₀ hd] at tie
  have low : 2 * (q * den) ≤ 2 * num + den := by
    have : (2 * (q * den) : ℚ) ≤ 2 * num + den := by linarith
    exact_mod_cast this
  have high : 2 * num ≤ 2 * (q * den) + den := by
    have : (2 * num : ℚ) ≤ 2 * (q * den) + den := by linarith
    exact_mod_cast this
  have tie : q % 2 = 1 → 2 * (q * den) < 2 * num + den ∧ 2 * num < 2 * (q * den) + den := by
    intro odd
    obtain ⟨below, above⟩ := tie odd
    have below : (2 * (q * den) : ℚ) < 2 * num + den := by linarith
    have above : (2 * num : ℚ) < 2 * (q * den) + den := by linarith
    exact ⟨by exact_mod_cast below, by exact_mod_cast above⟩
  -- the quotient rounded down is `q` or the number before it
  have parts := Nat.div_add_mod num den
  have rest := Nat.mod_lt num positive
  rw [Nat.mul_comm] at parts
  have near : num / den = q ∨ num / den + 1 = q := by
    have least : num / den ≤ q := by
      by_contra above
      have := Nat.mul_le_mul_right den (show q + 1 ≤ num / den by omega)
      rw [Nat.add_mul, Nat.one_mul] at this
      omega
    have most : q ≤ num / den + 1 := by
      by_contra below
      have := Nat.mul_le_mul_right den (show num / den + 2 ≤ q by omega)
      rw [Nat.add_mul] at this
      omega
    omega
  simp only [roundDiv]
  rcases near with same | next
  · rw [same] at parts ⊢
    split
    · rfl
    · split <;> omega
  · have : q * den = num / den * den + den := by rw [← next, Nat.add_mul, Nat.one_mul]
    split
    · omega
    · split <;> omega

/-- The quotient of two numbers by a power of two, as a fraction. -/
def scaled (num den : ℕ) (e : ℤ) : ℕ × ℕ :=
  if 0 ≤ e then (num, den * Nat.pow 2 e.toNat) else (num * Nat.pow 2 (-e).toNat, den)

variable {num den : ℕ}

theorem scaled_positive (num : ℕ) (positive : 0 < den) (e : ℤ) : 0 < (scaled num den e).2 := by
  unfold scaled
  split
  · exact Nat.mul_pos positive (Nat.pow_pos (by decide))
  · exact positive

theorem two_zpow_toNat {e : ℤ} (h : 0 ≤ e) : ((Nat.pow 2 e.toNat : ℕ) : ℚ) = 2 ^ e := by
  rw [Nat.pow_eq, Nat.cast_pow, Nat.cast_ofNat, ← zpow_natCast, Int.toNat_of_nonneg h]

theorem scaled_ratio (num den : ℕ) (e : ℤ) :
    ((scaled num den e).1 / (scaled num den e).2 : ℚ) = num / den / 2 ^ e := by
  unfold scaled
  split
  · rename_i h
    rw [Nat.cast_mul, two_zpow_toNat h, div_div]
  · rename_i h
    rw [Nat.cast_mul, two_zpow_toNat (by omega), zpow_neg, mul_div_right_comm, div_eq_mul_inv _ (2 ^ e)]

/-- The exponent of the double nearest to a ratio. -/
def exponentOf (num den : ℕ) : ℤ :=
  let guess : ℤ := max ((num.log2 : ℤ) - den.log2 - 53) (-1074)
  if (scaled num den guess).1 / (scaled num den guess).2 < 2 * binade then guess else guess + 1

theorem rankOfRatio_eq (h : num ≠ 0) : rankOfRatio num den =
    (exponentOf num den + 1074).toNat * binade +
      roundDiv (scaled num den (exponentOf num den)).1 (scaled num den (exponentOf num den)).2 := by
  rw [rankOfRatio, if_neg h]
  rfl

theorem log2_bounds {n : ℕ} (positive : 0 < n) :
    (2 : ℚ) ^ (n.log2 : ℤ) ≤ n ∧ (n : ℚ) < 2 ^ ((n.log2 : ℤ) + 1) := by
  have low := Nat.log2_self_le (Nat.ne_of_gt positive)
  have high := Nat.lt_log2_self (n := n)
  constructor
  · rw [zpow_natCast]
    exact_mod_cast low
  · rw [show ((n.log2 : ℤ) + 1) = ((n.log2 + 1 : ℕ) : ℤ) by simp, zpow_natCast]
    exact_mod_cast high

/-- The binary logarithms of two numbers give their ratio within two powers of two. -/
theorem log2_ratio (hn : 0 < num) (hd : 0 < den) :
    (2 : ℚ) ^ ((num.log2 : ℤ) - den.log2 - 1) ≤ num / den ∧
      (num / den : ℚ) < 2 ^ ((num.log2 : ℤ) - den.log2 + 1) := by
  obtain ⟨nLow, nHigh⟩ := log2_bounds hn
  obtain ⟨dLow, dHigh⟩ := log2_bounds hd
  have hd' : (0 : ℚ) < den := by exact_mod_cast hd
  generalize (num.log2 : ℤ) = a at *
  generalize (den.log2 : ℤ) = b at *
  constructor
  · rw [le_div_iff₀ hd']
    calc (2 : ℚ) ^ (a - b - 1) * den ≤ 2 ^ (a - b - 1) * 2 ^ (b + 1) :=
          mul_le_mul_of_nonneg_left dHigh.le (by positivity)
      _ = 2 ^ a := by rw [← zpow_add₀ two_ne_zero]; congr 1; omega
      _ ≤ num := nLow
  · rw [div_lt_iff₀ hd']
    calc (num : ℚ) < 2 ^ (a + 1) := nHigh
      _ = 2 ^ (a - b + 1) * 2 ^ b := by rw [← zpow_add₀ two_ne_zero]; congr 1; omega
      _ ≤ 2 ^ (a - b + 1) * den := mul_le_mul_of_nonneg_left dLow (by positivity)

/-- A quotient by a power of two has at most 53 binary digits if the power is large enough. -/
theorem scaled_lt_iff (num : ℕ) (hd : 0 < den) (g : ℤ) :
    (scaled num den g).1 / (scaled num den g).2 < 2 * binade ↔
      (num / den : ℚ) < 2 ^ (53 + g) := by
  have hs := scaled_positive num hd g
  have hs' : (0 : ℚ) < (scaled num den g).2 := by exact_mod_cast hs
  have power : ((2 * binade : ℕ) : ℚ) = 2 ^ (53 : ℤ) := by norm_num
  rw [Nat.div_lt_iff_lt_mul hs, zpow_add₀ two_ne_zero, ← div_lt_iff₀ (by positivity),
    ← scaled_ratio, div_lt_iff₀ hs', ← power]
  exact_mod_cast Iff.rfl

/-- The exponent is the least one that leaves a significand of 53 binary digits. -/
theorem exponentOf_spec (hn : 0 < num) (hd : 0 < den) :
    -1074 ≤ exponentOf num den ∧
      (num / den : ℚ) < 2 ^ (53 + exponentOf num den) ∧
      (exponentOf num den = -1074 ∨ (2 : ℚ) ^ (52 + exponentOf num den) ≤ num / den) := by
  obtain ⟨low, high⟩ := log2_ratio hn hd
  simp only [exponentOf, scaled_lt_iff num hd]
  generalize (num.log2 : ℤ) - den.log2 = t at *
  have below : ∀ {a b : ℤ}, a ≤ b → (num / den : ℚ) < 2 ^ a → (num / den : ℚ) < 2 ^ b :=
    fun h lt => lt.trans_le (zpow_le_zpow_right₀ one_le_two h)
  have above : ∀ {a b : ℤ}, b ≤ a → (2 : ℚ) ^ a ≤ num / den → (2 : ℚ) ^ b ≤ num / den :=
    fun h le => (zpow_le_zpow_right₀ one_le_two h).trans le
  split
  · rename_i small
    refine ⟨by omega, small, ?_⟩
    rcases le_or_gt (t - 53) (-1074) with deep | deep
    · exact .inl (by omega)
    · exact .inr (above (by omega) low)
  · rename_i large
    refine ⟨by omega, ?_, .inr ?_⟩
    · exact below (by omega) high
    · exact above (by omega) (not_lt.1 large)

theorem roundDiv_le (num den : ℕ) : roundDiv num den ≤ num / den + 1 := by
  simp only [roundDiv]
  split
  · omega
  split <;> omega

/-- A ratio that is not too large has a finite double. -/
theorem isFinite_ofRatio (negative : Bool) (hd : 0 < den) (small : (num / den : ℚ) < 2 ^ (1000 : ℤ)) :
    (ofRatio negative num den).isFinite = true := by
  have below : rankOfRatio num den < infinityRank := by
    rcases Nat.eq_zero_or_pos num with rfl | hn
    · exact Nat.mul_pos (by decide) (by decide)
    obtain ⟨least, fits, fills⟩ := exponentOf_spec hn hd
    have exponent : exponentOf num den < 948 := by
      rcases fills with deep | fills
      · omega
      · have := (zpow_lt_zpow_iff_right₀ (one_lt_two (α := ℚ))).1 (fills.trans_lt small)
        omega
    have digits := (scaled_lt_iff num hd _).2 fits
    have rounded := roundDiv_le (scaled num den (exponentOf num den)).1
      (scaled num den (exponentOf num den)).2
    rw [rankOfRatio_eq hn.ne']
    simp only [binade, infinityRank] at *
    omega
  rw [isFinite, ofRatio, rank_ofRank _ below.le]
  exact decide_eq_true below

/-- A whole number of 64 bits has a finite double. -/
theorem isFinite_ofInt {n : ℤ} (small : n.natAbs ≤ 2 ^ 64) : (ofInt n).isFinite = true := by
  refine isFinite_ofRatio _ Nat.one_pos ?_
  have : (n.natAbs : ℚ) ≤ 2 ^ 64 := by exact_mod_cast small
  rw [Nat.cast_one, div_one]
  calc (n.natAbs : ℚ) ≤ 2 ^ 64 := this
    _ = 2 ^ (64 : ℤ) := by norm_num
    _ < 2 ^ (1000 : ℤ) := zpow_lt_zpow_right₀ one_lt_two (by norm_num)

/-! ## Rounding to a double -/

/-- How far the interval reaches downwards, in quarters of the unit: there the next double is only
half a unit away if the significand is the least one. -/
def lowGap (x : Binary64) : ℕ :=
  if x.significand.1 = binade ∧ -1074 < x.significand.2 then 1 else 2

/-- The reals that round to the double, in quarters of its unit. -/
structure Rounds (x : Binary64) (v : ℚ) : Prop where
  low : (4 * x.significand.1 - x.lowGap) * 2 ^ (x.significand.2 - 2) ≤ v
  high : v ≤ (4 * x.significand.1 + 2) * 2 ^ (x.significand.2 - 2)
  tie : x.significand.1 % 2 = 1 →
    (4 * x.significand.1 - x.lowGap) * 2 ^ (x.significand.2 - 2) < v ∧
      v < (4 * x.significand.1 + 2) * 2 ^ (x.significand.2 - 2)

theorem lowGap_le (x : Binary64) : x.lowGap ≤ 2 := by
  unfold lowGap
  split <;> omega

/-- Only zero is rounded to zero. -/
theorem Rounds.pos {x : Binary64} {v : ℚ} (h : x.Rounds v) (positive : 0 < x.rank) : 0 < v := by
  have m : (1 : ℚ) ≤ x.significand.1 := by
    exact_mod_cast (significand_splits x).positive positive
  have gap : (x.lowGap : ℚ) ≤ 2 := by exact_mod_cast x.lowGap_le
  have unit : (0 : ℚ) < 2 ^ (x.significand.2 - 2) := by positivity
  exact lt_of_lt_of_le (mul_pos (by linarith) unit) h.low

/-- A power of two in quarters of the unit. -/
theorem power_quarters {g e : ℤ} (n : ℕ) (h : g = n + (e - 2)) :
    (2 : ℚ) ^ g = 2 ^ n * 2 ^ (e - 2) := by
  rw [h, zpow_add₀ two_ne_zero, zpow_natCast]

/-- What rounds to a double has its exponent, or, just below a power of two, the one before. -/
theorem Rounds.exponent {x : Binary64} {v : ℚ} {f : ℤ} (h : x.Rounds v) (least : -1074 ≤ f)
    (small : v < 2 ^ (53 + f)) (normal : f = -1074 ∨ (2 : ℚ) ^ (52 + f) ≤ v) :
    f = x.significand.2 ∨
      (f + 1 = x.significand.2 ∧ x.significand.1 = binade ∧ x.lowGap = 1) := by
  obtain ⟨low, high, -⟩ := h
  obtain ⟨-, least', small', normal'⟩ := significand_splits x
  have gap : (x.lowGap : ℚ) ≤ 2 := by exact_mod_cast x.lowGap_le
  have one : x.significand.1 = binade → -1074 < x.significand.2 → x.lowGap = 1 :=
    fun least above => if_pos ⟨least, above⟩
  generalize x.significand.1 = m at *
  generalize x.significand.2 = e at *
  generalize x.lowGap = g at *
  have unit : (0 : ℚ) < 2 ^ (e - 2) := by positivity
  have mono : ∀ {a b : ℤ}, a ≤ b → (2 : ℚ) ^ a ≤ 2 ^ b := zpow_le_zpow_right₀ one_le_two
  simp only [binade] at small' normal' one ⊢
  -- a greater exponent would be too great for the significand
  have notAbove : f ≤ e := by
    by_contra above
    have reach := (mono (show 53 + e ≤ 52 + f by omega)).trans (normal.resolve_left (by omega))
    rw [power_quarters 55 (show 53 + e = (55 : ℕ) + (e - 2) by omega)] at reach
    have := le_of_mul_le_mul_right (reach.trans high) unit
    have : 2 ^ 55 ≤ 4 * m + 2 := by exact_mod_cast this
    omega
  rcases notAbove.eq_or_lt with same | below
  · exact .inl same
  -- a smaller one leaves only what is just below the double with the least significand
  have reach := small.trans_le (mono (show 53 + f ≤ 52 + e by omega))
  rw [power_quarters 54 (show 52 + e = (54 : ℕ) + (e - 2) by omega)] at reach
  have bound : (4 * m : ℚ) < 2 ^ 54 + 2 := by
    linarith [lt_of_mul_lt_mul_right (low.trans_lt reach) unit.le]
  have bound : 4 * m < 2 ^ 54 + 2 := by exact_mod_cast bound
  have least : m = 0x10000000000000 := by omega
  have gap := one least (by omega)
  refine .inr ⟨?_, least, gap⟩
  by_contra far
  have reach := small.trans_le (mono (show 53 + f ≤ 51 + e by omega))
  rw [power_quarters 53 (show 51 + e = (53 : ℕ) + (e - 2) by omega)] at reach
  have := lt_of_mul_lt_mul_right (low.trans_lt reach) unit.le
  rw [least, gap] at this
  norm_num at this

/-- **A ratio that rounds to a double has its rank.** -/
theorem rankOfRatio_of_rounds {x : Binary64} (hn : 0 < num) (hd : 0 < den)
    (rounds : x.Rounds (num / den)) : rankOfRatio num den = x.rank := by
  obtain ⟨least, small, normal⟩ := exponentOf_spec hn hd
  obtain ⟨rank, least', -, -⟩ := significand_splits x
  have ratio := scaled_ratio num den (exponentOf num den)
  have positive := scaled_positive num hd (exponentOf num den)
  have exponent := rounds.exponent least small normal
  obtain ⟨low, high, tie⟩ := rounds
  rw [rankOfRatio_eq (Nat.ne_of_gt hn)]
  generalize exponentOf num den = f at *
  generalize (num / den : ℚ) = v at *
  have power : (0 : ℚ) < 2 ^ f := by positivity
  rcases exponent with rfl | ⟨next, significand, gap⟩
  · -- with the double's own exponent, its significand is the nearest number
    have unit := power_quarters (e := x.significand.2) 2 (g := x.significand.2) (by omega)
    have gap : (x.lowGap : ℚ) ≤ 2 := by exact_mod_cast x.lowGap_le
    have quotient : roundDiv (scaled num den x.significand.2).1 (scaled num den x.significand.2).2 =
        x.significand.1 := by
      apply roundDiv_eq positive
      · rw [ratio, le_div_iff₀ power, unit]
        nlinarith
      · rw [ratio, div_le_iff₀ power, unit]
        linarith
      · intro odd
        obtain ⟨below, above⟩ := tie odd
        rw [ratio, lt_div_iff₀ power, div_lt_iff₀ power, unit]
        constructor <;> nlinarith
    rw [quotient]
    simp only [binade] at rank ⊢
    omega
  · -- with the exponent before it, the number is rounded up to the next power of two
    have unit := power_quarters (e := x.significand.2) 1 (g := f) (by omega)
    have top := power_quarters (e := x.significand.2) 54 (g := 53 + f) (by omega)
    rw [significand, gap, binade] at low
    have quotient : roundDiv (scaled num den f).1 (scaled num den f).2 = 0x20000000000000 := by
      apply roundDiv_eq positive
      · rw [ratio, le_div_iff₀ power, unit]
        norm_num at low ⊢
        linarith
      · rw [ratio, div_le_iff₀ power, unit]
        rw [top] at small
        norm_num at small ⊢
        linarith
      · intro odd
        exact absurd odd (by decide)
    rw [quotient]
    simp only [significand, binade] at rank ⊢
    omega

end ChargeLink.Binary64

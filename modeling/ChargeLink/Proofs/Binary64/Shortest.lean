import ChargeLink.Proofs.Binary64.Nearest

/-!
# Short decimals round to their double

The search for the shortest decimal looks at finer and finer decimal grids. What
it takes from a grid lies in the double's interval, and on the finest grid it
tries, the steps are smaller than the interval.

* `Binary64.shortest_rounds`: the shortest decimal of a finite double rounds to it.
-/

namespace ChargeLink.Binary64

variable {x : Binary64}

/-- The number that a decimal stands for. -/
def Decimal.toRat (d : Decimal) : ℚ :=
  d.digits * 10 ^ d.exponent

/-! ## The interval as a range of numbers -/

theorem interval_scale (x : Binary64) (q : ℕ) :
    ((q * (if 2 ≤ x.significand.2 then Nat.pow 2 (x.significand.2 - 2).toNat else 1) : ℕ) : ℚ) /
      (if 2 ≤ x.significand.2 then 1 else Nat.pow 2 (2 - x.significand.2).toNat : ℕ) =
      q * 2 ^ (x.significand.2 - 2) := by
  split
  · rw [Nat.cast_mul, two_zpow_toNat (by omega), Nat.cast_one, div_one]
  · rw [Nat.mul_one, two_zpow_toNat (by omega), show x.significand.2 - 2 = -(2 - x.significand.2) by omega,
      zpow_neg, div_eq_mul_inv]

theorem interval_den (x : Binary64) : 0 < x.interval.den := by
  simp only [interval]
  split
  · exact Nat.one_pos
  · exact Nat.pow_pos (by decide)

theorem interval_value (x : Binary64) : (x.interval.value / x.interval.den : ℚ) =
    4 * x.significand.1 * 2 ^ (x.significand.2 - 2) :=
  (interval_scale x (4 * x.significand.1)).trans (by push_cast; rfl)

theorem interval_high (x : Binary64) : (x.interval.high / x.interval.den : ℚ) =
    (4 * x.significand.1 + 2) * 2 ^ (x.significand.2 - 2) :=
  (interval_scale x (4 * x.significand.1 + 2)).trans (by push_cast; rfl)

theorem interval_low (positive : 0 < x.rank) : (x.interval.low / x.interval.den : ℚ) =
    (4 * x.significand.1 - x.lowGap) * 2 ^ (x.significand.2 - 2) := by
  refine (interval_scale x (4 * x.significand.1 - x.lowGap)).trans ?_
  have := (significand_splits x).positive positive
  have := x.lowGap_le
  rw [Nat.cast_sub (by omega)]
  push_cast
  rfl

/-- The fractions in the interval are those that round to the double. -/
theorem contains_iff (positive : 0 < x.rank) {n d : ℕ} (hd : 0 < d) :
    x.interval.contains n d = true ↔ x.Rounds (n / d) := by
  have hd' : (0 : ℚ) < d := by exact_mod_cast hd
  have den : (0 : ℚ) < x.interval.den := by exact_mod_cast x.interval_den
  have le : ∀ a b : ℕ, (a * d ≤ b * x.interval.den ↔ (a / x.interval.den : ℚ) ≤ b / d) := by
    intro a b
    rw [div_le_div_iff₀ den hd']
    exact_mod_cast Iff.rfl
  have ge : ∀ a b : ℕ, (b * x.interval.den ≤ a * d ↔ (b / d : ℚ) ≤ a / x.interval.den) := by
    intro a b
    rw [div_le_div_iff₀ hd' den]
    exact_mod_cast Iff.rfl
  have closed : x.interval.closed = (x.significand.1 % 2 == 0) := rfl
  unfold Interval.contains
  rw [closed]
  split
  · rename_i even
    have even : x.significand.1 % 2 = 0 := by simpa using even
    simp only [Bool.and_eq_true, decide_eq_true_eq, le, ge, interval_low positive, interval_high]
    exact ⟨fun ⟨low, high⟩ => ⟨low, high, fun odd => by omega⟩, fun h => ⟨h.low, h.high⟩⟩
  · rename_i odd
    have odd : x.significand.1 % 2 = 1 := by simpa using odd
    simp only [Bool.and_eq_true, decide_eq_true_eq, ← Nat.not_le, le, ge, interval_low positive,
      interval_high, not_le]
    exact ⟨fun ⟨low, high⟩ => ⟨low.le, high.le, fun _ => ⟨low, high⟩⟩, fun h => h.tie odd⟩

/-! ## Points of a decimal grid -/

theorem tenPow_positive (k : ℤ) : 0 < (tenPow k).1 ∧ 0 < (tenPow k).2 := by
  unfold tenPow
  split
  · exact ⟨Nat.pow_pos (by decide), Nat.one_pos⟩
  · exact ⟨Nat.one_pos, Nat.pow_pos (by decide)⟩

theorem ten_zpow_toNat {e : ℤ} (h : 0 ≤ e) : ((10 ^ e.toNat : ℕ) : ℚ) = 10 ^ e := by
  rw [Nat.cast_pow, Nat.cast_ofNat, ← zpow_natCast, Int.toNat_of_nonneg h]

theorem tenPow_ratio (k : ℤ) : ((tenPow k).1 / (tenPow k).2 : ℚ) = 10 ^ k := by
  unfold tenPow
  split
  · rename_i h
    rw [Nat.pow_eq, ten_zpow_toNat h, Nat.cast_one, div_one]
  · rw [Nat.pow_eq, ten_zpow_toNat (by omega), zpow_neg, Nat.cast_one, one_div, inv_inv]

theorem grid_point (n : ℕ) (k : ℤ) :
    ((n * (tenPow k).1 : ℕ) / (tenPow k).2 : ℚ) = n * 10 ^ k := by
  rw [Nat.cast_mul, mul_div_assoc, tenPow_ratio]

variable {i : Interval} {k : ℤ} {p : ℕ}

/-- What is taken from a grid lies in the interval. -/
theorem contains_of_onGrid (h : i.onGrid k = some p) :
    i.contains (p * (tenPow k).1) (tenPow k).2 = true := by
  simp only [Interval.onGrid] at h
  split at h
  · rename_i below above
    split at h
    all_goals
      cases h
      assumption
  · rename_i below above
    cases h
    exact below
  · rename_i below above
    cases h
    exact above
  · cases h

/-- If the point next below the value lies in the interval, one is taken. -/
theorem isSome_onGrid (h : i.contains
    (i.value * (tenPow k).2 / (i.den * (tenPow k).1) * (tenPow k).1) (tenPow k).2 = true) :
    (i.onGrid k).isSome = true := by
  simp only [Interval.onGrid, h]
  split
  · split <;> rfl
  · rfl
  · rename_i none _
    cases none
  · rename_i none _
    cases none

theorem rounds_of_onGrid (positive : 0 < x.rank) (h : x.interval.onGrid k = some p) :
    x.Rounds (p * 10 ^ k) := by
  have inside := contains_of_onGrid h
  rwa [contains_iff positive (tenPow_positive k).2, grid_point] at inside

/-! ## The leading digit -/

/-- The power of ten guessed from a binary logarithm is at most one too great: `1233 / 4096` is
close to the decimal logarithm of two. -/
theorem ten_zpow_le {t : ℤ} (h : -2048 ≤ t) : (10 : ℚ) ^ (t * 1233 / 4096 - 1) ≤ 2 ^ (t - 1) := by
  have guess : 4096 * (t * 1233 / 4096) ≤ 1233 * t := by omega
  have least : -861 ≤ t * 1233 / 4096 := by omega
  generalize t * 1233 / 4096 = q at *
  -- `10 ^ 1233 ≤ 2 ^ 4096 ≤ 10 ^ 1234`, and a negative power turns the order around
  obtain ⟨c, close, rest⟩ : ∃ c : ℤ, (10 : ℚ) ^ (c * q) ≤ 2 ^ (4096 * q) ∧
      (1233 - c) * q - 1233 ≤ -372 := by
    have below : (10 : ℚ) ^ (1233 : ℤ) ≤ 2 ^ (4096 : ℤ) := by
      have : 10 ^ 1233 ≤ 2 ^ 4096 := by decide +kernel
      exact_mod_cast this
    have above : (2 : ℚ) ^ (4096 : ℤ) ≤ 10 ^ (1234 : ℤ) := by
      have : 2 ^ 4096 ≤ 10 ^ 1234 := by decide +kernel
      exact_mod_cast this
    rcases le_or_gt 0 q with positive | negative
    · refine ⟨1233, ?_, by omega⟩
      rw [zpow_mul, zpow_mul]
      exact zpow_le_zpow_left₀ positive (by positivity) below
    · refine ⟨1234, ?_, by omega⟩
      rw [zpow_mul, zpow_mul, ← neg_neg q, zpow_neg, zpow_neg _ (-q)]
      exact inv_anti₀ (by positivity) (zpow_le_zpow_left₀ (by omega) (by positivity) above)
  have small : (10 : ℚ) ^ (-372 : ℤ) ≤ 2 ^ (-1233 : ℤ) := by
    have : 2 ^ 1233 ≤ 10 ^ 372 := by decide +kernel
    rw [zpow_neg, zpow_neg]
    exact inv_anti₀ (by positivity) (by exact_mod_cast this)
  refine le_of_pow_le_pow_left₀ (n := 1233) (by decide) (by positivity) ?_
  calc ((10 : ℚ) ^ (q - 1)) ^ 1233 = 10 ^ (c * q) * 10 ^ ((1233 - c) * q - 1233) := by
        rw [← zpow_natCast, ← zpow_mul, ← zpow_add₀ (by norm_num)]
        congr 1
        push_cast
        ring
    _ ≤ 2 ^ (4096 * q) * 10 ^ (-372 : ℤ) := by gcongr; norm_num
    _ ≤ 2 ^ (1233 * t) * 2 ^ (-1233 : ℤ) := by gcongr; norm_num
    _ = (2 ^ (t - 1)) ^ 1233 := by
        rw [← zpow_natCast, ← zpow_mul, ← zpow_add₀ two_ne_zero]
        congr 1
        push_cast
        ring

/-- The leading digit stands at a power of ten that the value reaches. -/
theorem leading_le (value : 0 < i.value) (den : 0 < i.den)
    (least : (2 : ℚ) ^ (-2048 : ℤ) ≤ i.value / i.den) :
    (10 : ℚ) ^ i.leading ≤ i.value / i.den := by
  have hd : (0 : ℚ) < i.den := by exact_mod_cast den
  have reached : ∀ {k : ℤ}, decide (i.den * (tenPow k).1 ≤ i.value * (tenPow k).2) = true →
      (10 : ℚ) ^ k ≤ i.value / i.den := by
    intro k h
    have down : (0 : ℚ) < (tenPow k).2 := by exact_mod_cast (tenPow_positive k).2
    rw [← tenPow_ratio, div_le_div_iff₀ down hd, mul_comm ((tenPow k).1 : ℚ)]
    exact_mod_cast of_decide_eq_true h
  obtain ⟨low, high⟩ := log2_ratio value den
  simp only [Interval.leading]
  generalize (i.value.log2 : ℤ) - i.den.log2 = t at *
  split
  · exact reached ‹_›
  split
  · exact reached ‹_›
  split
  · exact reached ‹_›
  · refine (ten_zpow_le ?_).trans low
    have := (zpow_lt_zpow_iff_right₀ one_lt_two).1 (least.trans_lt high)
    omega

/-! ## The search -/

/-- Where some grid has a point in the interval, the search takes one. -/
theorem onGrid_search {top : ℤ} {fuel n j : ℕ} (less : j < fuel)
    (found : (i.onGrid (top + 1 - (n + j : ℕ))).isSome = true) :
    i.onGrid (i.search top fuel n).exponent = some (i.search top fuel n).digits := by
  induction fuel generalizing n j with
  | zero => omega
  | succ fuel ih =>
    unfold Interval.search
    split
    · assumption
    · rename_i none
      -- the first grid is not the one, so it is among the others
      obtain ⟨j, rfl⟩ : ∃ l, j = l + 1 := Nat.exists_eq_add_one_of_ne_zero fun zero => by
        rw [zero, Nat.add_zero, none] at found
        cases found
      refine ih (j := j) (by omega) ?_
      rwa [show n + 1 + j = n + (j + 1) by omega]

/-- Moving zeros into the exponent leaves the number alone. -/
theorem toRat_normalize (fuel : ℕ) (d : Decimal) : (d.normalize fuel).toRat = d.toRat := by
  induction fuel generalizing d with
  | zero => rfl
  | succ fuel ih =>
    unfold Decimal.normalize
    split
    · rename_i zero
      rw [Bool.and_eq_true, beq_iff_eq] at zero
      rw [ih]
      have digits : d.digits = 10 * (d.digits / 10) := by omega
      rw [Decimal.toRat, Decimal.toRat, zpow_add₀ (by norm_num)]
      conv_rhs => rw [digits]
      push_cast
      ring
    · rfl

/-- The value lies between two neighbours on the grid. -/
theorem grid_neighbours (den : 0 < i.den) (k : ℤ) :
    ((i.value * (tenPow k).2 / (i.den * (tenPow k).1) : ℕ) * 10 ^ k : ℚ) ≤ i.value / i.den ∧
      (i.value / i.den : ℚ) <
        ((i.value * (tenPow k).2 / (i.den * (tenPow k).1) : ℕ) + 1) * 10 ^ k := by
  obtain ⟨up, down⟩ := tenPow_positive k
  have hd : (0 : ℚ) < i.den := by exact_mod_cast den
  have hdown : (0 : ℚ) < (tenPow k).2 := by exact_mod_cast down
  have step : 0 < i.den * (tenPow k).1 := Nat.mul_pos den up
  rw [← tenPow_ratio]
  have low := Nat.div_mul_le_self (i.value * (tenPow k).2) (i.den * (tenPow k).1)
  have high := Nat.lt_div_mul_add (a := i.value * (tenPow k).2) step
  rw [← Nat.succ_mul] at high
  generalize i.value * (tenPow k).2 / (i.den * (tenPow k).1) = n at *
  constructor
  · rw [← mul_div_assoc, div_le_div_iff₀ hdown hd, mul_right_comm, mul_assoc]
    exact_mod_cast low
  · rw [← mul_div_assoc, div_lt_div_iff₀ hd hdown, mul_right_comm, mul_assoc]
    exact_mod_cast high

/-- The point next below the value, on the grid of its eighteenth digit, rounds to the double. -/
theorem rounds_eighteenth {k : ℤ}
    (reached : (10 : ℚ) ^ (k + 17) ≤ x.interval.value / x.interval.den) (n : ℕ)
    (below : n * (10 : ℚ) ^ k ≤ x.interval.value / x.interval.den)
    (next : (x.interval.value / x.interval.den : ℚ) < (n + 1) * 10 ^ k) :
    x.Rounds (n * 10 ^ k) := by
  rw [interval_value] at reached below next
  have small : (4 * x.significand.1 : ℚ) < 2 ^ 55 := by
    have := (significand_splits x).small
    simp only [binade] at this
    have : 4 * x.significand.1 < 2 ^ 55 := by omega
    exact_mod_cast this
  have gap : (1 : ℚ) ≤ x.lowGap := by
    have : 1 ≤ x.lowGap := by
      unfold lowGap
      split <;> omega
    exact_mod_cast this
  have unit : (0 : ℚ) < 2 ^ (x.significand.2 - 2) := by positivity
  -- eighteen digits are finer than a quarter of the unit
  have fine : (10 : ℚ) ^ k < 2 ^ (x.significand.2 - 2) := by
    rw [zpow_add₀ (by norm_num)] at reached
    norm_num at reached small ⊢
    nlinarith
  have inside : (4 * x.significand.1 - x.lowGap) * 2 ^ (x.significand.2 - 2) < n * (10 : ℚ) ^ k := by
    nlinarith
  have above : n * (10 : ℚ) ^ k < (4 * x.significand.1 + 2) * 2 ^ (x.significand.2 - 2) := by
    nlinarith
  exact ⟨inside.le, above.le, fun _ => ⟨inside, above⟩⟩

/-- **The shortest decimal of a finite double rounds to it.** -/
theorem shortest_rounds (positive : 0 < x.rank) : x.Rounds x.shortest.toRat := by
  have den : (0 : ℚ) < x.interval.den := by exact_mod_cast x.interval_den
  -- the value is not zero, and no smaller than the smallest double
  have least : (2 : ℚ) ^ (-2048 : ℤ) ≤ x.interval.value / x.interval.den := by
    have splits := significand_splits x
    have m : (1 : ℚ) ≤ x.significand.1 := by exact_mod_cast splits.positive positive
    have unit : (2 : ℚ) ^ (-2048 : ℤ) ≤ 2 ^ (x.significand.2 - 2) :=
      zpow_le_zpow_right₀ one_le_two (by have := splits.least; omega)
    have : (0 : ℚ) < 2 ^ (x.significand.2 - 2) := by positivity
    rw [interval_value]
    nlinarith
  have value : 0 < x.interval.value := by
    refine Nat.pos_of_ne_zero fun zero => ?_
    rw [zero, Nat.cast_zero, zero_div] at least
    exact absurd least (not_le.2 (by positivity))
  have reached := leading_le value x.interval_den least
  rw [shortest, if_neg (Nat.ne_of_gt positive), toRat_normalize, Decimal.toRat]
  refine rounds_of_onGrid positive (onGrid_search (j := 17) (by decide) (isSome_onGrid ?_))
  rw [show ((1 + 17 : ℕ) : ℤ) = 18 from rfl, contains_iff positive (tenPow_positive _).2, grid_point]
  obtain ⟨below, next⟩ := grid_neighbours x.interval_den (x.interval.leading + 1 - 18)
  refine rounds_eighteenth ?_ _ below next
  rwa [show x.interval.leading + 1 - 18 + 17 = x.interval.leading by omega]

theorem digits_shortest (positive : 0 < x.rank) : 0 < x.shortest.digits := by
  exact_mod_cast pos_of_mul_pos_left ((shortest_rounds positive).pos positive) (by positivity)

end ChargeLink.Binary64

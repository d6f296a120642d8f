/-!
# Double-precision numbers

A double is a sign and a `rank`: its absolute value's place among the doubles
that are not negative, counted upwards from zero. Infinity comes after all
finite ranks and the one NaN after infinity, so ranks compare as absolute
values do. Results are rounded to the nearest double, a tie to the even rank,
in exact arithmetic (`roundDiv`).
-/

namespace ChargeLink

/-- How many doubles there are from a power of two up to the next one. -/
abbrev binade : Nat := 0x10000000000000

/-- The rank of infinity. -/
abbrev infinityRank : Nat := 2047 * binade

/-- A double: its sign, and the place of its absolute value. -/
structure Binary64 where
  negative : Bool
  rank : Nat
  inRange : rank ≤ infinityRank + 1
  deriving DecidableEq

namespace Binary64

/-- The quotient `num / den` as a whole number, a half going to the even neighbour. -/
def roundDiv (num den : Nat) : Nat :=
  let q := num / den
  let r := num % den
  if 2 * r < den then q
  else if 2 * r = den then q + q % 2
  else q + 1

/-- The double of a rank; ranks past infinity are infinity. -/
def ofRank (negative : Bool) (rank : Nat) : Binary64 :=
  ⟨negative, min rank infinityRank, by omega⟩

/-- Zero with a sign. -/
def zero (negative : Bool) : Binary64 :=
  ofRank negative 0

/-- Infinity with a sign. -/
def infinity (negative : Bool) : Binary64 :=
  ofRank negative infinityRank

/-- The number that is none. -/
def nan : Binary64 :=
  ⟨false, infinityRank + 1, Nat.le_refl _⟩

/-- Whether the number is none. -/
def isNaN (x : Binary64) : Bool :=
  x.rank == infinityRank + 1

/-- Whether the number is neither infinite nor none. -/
def isFinite (x : Binary64) : Bool :=
  x.rank < infinityRank

/-- The absolute value of a finite double as `m · 2 ^ e`, with the smallest `e` of its format. -/
def significand (x : Binary64) : Nat × Int :=
  if x.rank < binade then (x.rank, -1074)
  else (x.rank % binade + binade, (x.rank / binade : Nat) - 1075)

/-- The rank of the double nearest to `num / den`, for a positive `den`. -/
def rankOfRatio (num den : Nat) : Nat :=
  if num = 0 then 0
  else
    let scaled (e : Int) : Nat × Nat :=
      if 0 ≤ e then (num, den * Nat.pow 2 e.toNat) else (num * Nat.pow 2 (-e).toNat, den)
    let guess : Int := max ((num.log2 : Int) - den.log2 - 53) (-1074)
    let e := if (scaled guess).1 / (scaled guess).2 < 2 * binade then guess else guess + 1
    (e + 1074).toNat * binade + roundDiv (scaled e).1 (scaled e).2

/-- The double nearest to `num / den`, for a positive `den`. -/
def ofRatio (negative : Bool) (num den : Nat) : Binary64 :=
  ofRank negative (rankOfRatio num den)

/-- The double nearest to `m · 2 ^ e`. -/
def ofScaled (negative : Bool) (m : Nat) (e : Int) : Binary64 :=
  if 0 ≤ e then ofRatio negative (m * Nat.pow 2 e.toNat) 1 else ofRatio negative m (Nat.pow 2 (-e).toNat)

/-- The double nearest to a whole number. -/
def ofInt (n : Int) : Binary64 :=
  ofRatio (n < 0) n.natAbs 1

/-- The double nearest to a natural number. -/
def ofNat (n : Nat) : Binary64 :=
  ofRatio false n 1

/-- The product of two doubles. -/
def mul (x y : Binary64) : Binary64 :=
  let negative := x.negative != y.negative
  if x.isNaN || y.isNaN then nan
  else if x.isFinite && y.isFinite then
    let (m, e) := x.significand
    let (n, f) := y.significand
    ofScaled negative (m * n) (e + f)
  else if x.rank == 0 || y.rank == 0 then nan
  else infinity negative

/-- The sum of two doubles that are not negative. -/
def addAbs (x y : Binary64) : Binary64 :=
  if x.isNaN || y.isNaN then nan
  else if x.isFinite && y.isFinite then
    let (m, e) := x.significand
    let (n, f) := y.significand
    let low := min e f
    ofScaled false (m * Nat.pow 2 (e - low).toNat + n * Nat.pow 2 (f - low).toNat) low
  else infinity false

/-- A double that is not negative, divided by a positive whole number. -/
def divNat (x : Binary64) (d : Nat) : Binary64 :=
  if x.isFinite then
    let (m, e) := x.significand
    if 0 ≤ e then ofRatio false (m * Nat.pow 2 e.toNat) d
    else ofRatio false m (d * Nat.pow 2 (-e).toNat)
  else x

/-- Whether `x` is less than `y`; never so if one of them is no number. -/
def lt (x y : Binary64) : Bool :=
  if x.isNaN || y.isNaN then false
  else if x.rank == 0 && y.rank == 0 then false
  else
    match x.negative, y.negative with
    | false, false => x.rank < y.rank
    | true, true => y.rank < x.rank
    | true, false => true
    | false, true => false

/-- The lesser of two; the other one if one of them is no number. -/
def minimum (x y : Binary64) : Binary64 :=
  if x.isNaN then y
  else if y.isNaN then x
  else if y.lt x then y
  else x

/-- The power by repeated squaring, with `fuel` binary digits of the exponent left. -/
def powLoop : Nat → Binary64 → Binary64 → Nat → Binary64
  | 0, acc, _, _ => acc
  | fuel + 1, acc, base, n =>
    let acc := if n % 2 == 1 then acc.mul base else acc
    if n < 2 then acc else powLoop fuel acc (base.mul base) (n / 2)

/-- The power with a natural exponent, by repeated squaring from the lowest digit. -/
def pow (base : Binary64) (n : Nat) : Binary64 :=
  powLoop (n.log2 + 1) (ofNat 1) base n

theorem rank_ofRank (s : Bool) {r : Nat} (h : r ≤ infinityRank) : (ofRank s r).rank = r := by
  simp [ofRank, h]

/-- Rounding leaves an exact quotient alone. -/
theorem roundDiv_mul (q : Nat) {d : Nat} (h : 0 < d) : roundDiv (q * d) d = q := by
  simp [roundDiv, Nat.mul_div_cancel _ h, h]

end Binary64

end ChargeLink

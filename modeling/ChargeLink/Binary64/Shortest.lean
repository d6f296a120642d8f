import ChargeLink.Binary64.Basic

/-!
# The shortest decimal of a double

`shortest` finds the fewest digits that read back as the given finite double,
and of two such decimals the nearer one. The reals that round to `m · 2 ^ e`
form an interval whose ends belong to it if `m` is even; on each decimal grid
only the value's two neighbours need be tried.
-/

namespace ChargeLink.Binary64

/-- The decimal `digits · 10 ^ exponent`. -/
structure Decimal where
  digits : Nat
  exponent : Int
  deriving DecidableEq, Repr

/-- A positive value with the ends of the interval that rounds to it, over one denominator. -/
structure Interval where
  low : Nat
  value : Nat
  high : Nat
  den : Nat
  closed : Bool

/-- The interval of reals that round to the double. -/
def interval (x : Binary64) : Interval :=
  let (m, e) := x.significand
  let lowGap := if m = binade ∧ -1074 < e then 1 else 2
  let scale := if 2 ≤ e then Nat.pow 2 (e - 2).toNat else 1
  let den := if 2 ≤ e then 1 else Nat.pow 2 (2 - e).toNat
  ⟨(4 * m - lowGap) * scale, 4 * m * scale, (4 * m + 2) * scale, den, m % 2 == 0⟩

/-- Whether `n / d` lies in the interval. -/
def Interval.contains (i : Interval) (n d : Nat) : Bool :=
  if i.closed then i.low * d ≤ n * i.den && n * i.den ≤ i.high * d
  else i.low * d < n * i.den && n * i.den < i.high * d

/-- The power of ten as a fraction. -/
def tenPow (k : Int) : Nat × Nat :=
  if 0 ≤ k then (Nat.pow 10 k.toNat, 1) else (1, Nat.pow 10 (-k).toNat)

/-- The point of the grid of multiples of `10 ^ k` that reads back, the nearer one of two,
an even one if both are as near. -/
def Interval.onGrid (i : Interval) (k : Int) : Option Nat :=
  let (up, down) := tenPow k
  let num := i.value * down
  let den := i.den * up
  let below := num / den
  let has (n : Nat) : Bool := i.contains (n * up) down
  let excess := num - below * den
  match has below, has (below + 1) with
  | true, true =>
    if 2 * excess < den || (2 * excess == den && below % 2 == 0) then some below
    else some (below + 1)
  | true, false => some below
  | false, true => some (below + 1)
  | false, false => none

/-- The place of the leading decimal digit: the `k` with `10 ^ k ≤ value < 10 ^ (k + 1)`. -/
def Interval.leading (i : Interval) : Int :=
  let guess : Int := ((i.value.log2 : Int) - i.den.log2) * 1233 / 4096
  let reached (k : Int) : Bool :=
    let (up, down) := tenPow k
    i.den * up ≤ i.value * down
  if reached (guess + 2) then guess + 2
  else if reached (guess + 1) then guess + 1
  else if reached guess then guess
  else guess - 1

/-- The first grid with a point that reads back, from `n` digits on. -/
def Interval.search (i : Interval) (top : Int) : (fuel n : Nat) → Decimal
  | 0, n => ⟨0, top - n⟩
  | fuel + 1, n =>
    match i.onGrid (top + 1 - n) with
    | some digits => ⟨digits, top + 1 - n⟩
    | none => i.search top fuel (n + 1)

/-- Moves the zeros at the end of the digits into the exponent. -/
def Decimal.normalize : Nat → Decimal → Decimal
  | 0, d => d
  | fuel + 1, d =>
    if d.digits % 10 == 0 && d.digits != 0 then normalize fuel ⟨d.digits / 10, d.exponent + 1⟩
    else d

/-- The shortest decimal that reads back as the absolute value of a finite double. -/
def shortest (x : Binary64) : Decimal :=
  if x.rank = 0 then ⟨0, 0⟩
  else (x.interval.search x.interval.leading 18 1).normalize 20

end ChargeLink.Binary64

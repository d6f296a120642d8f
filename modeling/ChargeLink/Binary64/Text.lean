import ChargeLink.Binary64.Shortest

/-!
# Doubles as text

Written with the fewest digits that read back, positionally from `10 ^ -5` up
to `10 ^ 16` and with an exponent elsewhere. Read from a decimal by exact
rounding; a decimal too large for a double has none.
-/

namespace ChargeLink.Binary64

/-- Least and last-but-one power of ten written without an exponent. -/
def positionalFrom : Int := -5

/-- The powers of ten from here on are written with an exponent. -/
def positionalBefore : Int := 16

/-- The text of a finite double's absolute value. -/
def unsignedText (x : Binary64) : String :=
  let d := x.shortest
  let digits := toString d.digits
  let count := digits.length
  let top : Int := d.exponent + count - 1
  if x.rank = 0 then "0.0"
  else if positionalFrom ≤ top ∧ top < positionalBefore then
    if 0 ≤ d.exponent then
      digits ++ String.ofList (List.replicate d.exponent.toNat '0') ++ ".0"
    else if 0 ≤ top then
      let whole := top.toNat + 1
      String.ofList (digits.toList.take whole) ++ "." ++ String.ofList (digits.toList.drop whole)
    else
      "0." ++ String.ofList (List.replicate (-top - 1).toNat '0') ++ digits
  else
    let mantissa :=
      match digits.toList with
      | c :: d :: r => String.ofList (c :: '.' :: d :: r)
      | cs => String.ofList cs
    mantissa ++ "e" ++ (if top < 0 then "-" else "+") ++ toString top.natAbs

/-- The text of a double. -/
def text (x : Binary64) : String :=
  if x.isNaN then "nan"
  else if x.isFinite then (if x.negative then "-" else "") ++ x.unsignedText
  else if x.negative then "-inf"
  else "inf"

/-- The double nearest to `digits · 10 ^ exponent`, if it is not too large. Decimals that are
far outside the format's range are settled without computing their power of ten. -/
def ofDecimal? (negative : Bool) (digits : Nat) (exponent : Int) : Option Binary64 :=
  let size : Int := (toString digits).length + exponent
  if digits = 0 ∨ size < -330 then some (zero negative)
  else if 310 < size then none
  else
    let x :=
      if 0 ≤ exponent then ofRatio negative (digits * Nat.pow 10 exponent.toNat) 1
      else ofRatio negative digits (Nat.pow 10 (-exponent).toNat)
    if x.isFinite then some x else none

end ChargeLink.Binary64

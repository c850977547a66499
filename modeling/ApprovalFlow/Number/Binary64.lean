/-!
# Binary floating point

Finite numbers of the 64-bit binary format as exact data: a sign, a whole mantissa and a power of
two. Every operation computes the exact quotient first and rounds it once, to the nearest number
of the format and to the even mantissa on a tie.

- `Binary64`: a finite number.
- `Binary64.ofQuotient`: the number nearest to a quotient of natural numbers.
- `Binary64.ofDecimal`: the number read from a decimal significand and exponent.
-/

namespace ApprovalFlow

/-- The number `mantissa * 2 ^ exponent`, with a minus sign if `negative`. Zero has both signs. -/
structure Binary64 where
  /-- Is the number below zero, or a zero with a minus sign? -/
  negative : Bool
  /-- Below `2 ^ 53`; from `2 ^ 52` on unless the exponent is least. -/
  mantissa : Nat
  /-- From `-1074` to `971`. -/
  exponent : Int
  deriving DecidableEq, Repr

namespace Binary64

/-- The natural number nearest to `num / den`, the even one on a tie. -/
def divRound (num den : Nat) : Nat :=
  let q := num / den
  let r := num % den
  if 2 * r < den then q
  else if den < 2 * r then q + 1
  else if q % 2 = 0 then q
  else q + 1

/-- The quotient `num / den` times `base ^ k`, as a quotient again. -/
def scale (base : Nat) (k : Int) (num den : Nat) : Nat × Nat :=
  if 0 ≤ k then (num * Nat.pow base k.toNat, den) else (num, den * Nat.pow base (-k).toNat)

/-- The zero of a sign. -/
def zero (negative : Bool) : Binary64 := ⟨negative, 0, -1074⟩

/-- The number nearest to `num / den`, with the given sign; nothing if it lies beyond the largest. -/
def ofQuotient (negative : Bool) (num den : Nat) : Option Binary64 :=
  if num = 0 then some (zero negative)
  else
    let guess : Int := (num.log2 : Int) - (den.log2 : Int) - 52
    let (n, d) := scale 2 (-guess) num den
    let exponent := max (if n < Nat.pow 2 52 * d then guess - 1 else guess) (-1074)
    let (n, d) := scale 2 (-exponent) num den
    let m := divRound n d
    let (m, exponent) := if m = Nat.pow 2 53 then (Nat.pow 2 52, exponent + 1) else (m, exponent)
    if 971 < exponent then none else some ⟨negative, m, exponent⟩

/-- The size of a number as a quotient of natural numbers. -/
def magnitude (x : Binary64) : Nat × Nat := scale 2 x.exponent x.mantissa 1

/-- The rounded product. -/
def mul (x y : Binary64) : Option Binary64 :=
  let (a, b) := x.magnitude
  let (c, d) := y.magnitude
  ofQuotient (x.negative != y.negative) (a * c) (b * d)

/-- The rounded quotient. -/
def div (x y : Binary64) : Option Binary64 :=
  let (a, b) := x.magnitude
  let (c, d) := y.magnitude
  ofQuotient (x.negative != y.negative) (a * d) (b * c)

/-- The number nearest to `10 ^ k`, for `k` up to 308. -/
def powerOfTen (k : Nat) : Option Binary64 := ofQuotient false (Nat.pow 10 k) 1

/-- The number read from `significand * 10 ^ exponent`: the significand is rounded first and then
multiplied or divided by a rounded power of ten. Below `10 ^ (-308)` the division is done in two
steps; a number beyond the largest is refused. -/
def ofDecimal (negative : Bool) (significand : Nat) (exponent : Int) : Option Binary64 := do
  let x ← ofQuotient negative significand 1
  if exponent.natAbs ≤ 308 then
    let power ← powerOfTen exponent.natAbs
    if 0 ≤ exponent then x.mul power else x.div power
  else if x.mantissa = 0 then
    return x
  else if 0 ≤ exponent then
    none
  else
    let y ← x.div (← powerOfTen 308)
    if exponent + 616 < 0 then return zero negative
    else y.div (← powerOfTen (exponent + 308).natAbs)

end Binary64

end ApprovalFlow

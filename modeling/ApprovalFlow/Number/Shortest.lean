import ApprovalFlow.Number.Binary64

/-!
# Shortest decimals

The decimal text of a binary number: the fewest digits that read back as the same number, and of
those the decimal nearest to it.

- `Binary64.shortest`: the digits and the power of ten.
- `Binary64.text`: the text, positional from `10 ^ (-5)` to `10 ^ 16` and with an exponent beyond.
-/

namespace ApprovalFlow.Binary64

/-- The least `e` with `num / den < 10 ^ e`, for a positive quotient. -/
def decimalPoint (num den : Nat) : Int :=
  if den ≤ num then ((Nat.toDigits 10 (num / den)).length : Int)
  else
    let zeros := ((List.range 400).find? fun j => decide (den ≤ num * Nat.pow 10 (j + 1))).getD 0
    Int.negOfNat zeros

/-- A decimal `c * 10 ^ k` that reads back as `x`, if the grid of multiples of `10 ^ k` has one:
the nearer of the two neighbours of `x`, the even one on a tie. The numbers that round to `x` lie
between the midpoints to its neighbours, which belong to them if the mantissa is even. -/
def onGrid? (x : Binary64) (k : Int) : Option Nat :=
  let wide := x.mantissa = Nat.pow 2 52 ∧ -1074 < x.exponent
  let onUnit (quarters : Nat) : Nat × Nat :=
    let (n, d) := scale 2 (x.exponent - 2) quarters 1
    scale 10 (-k) n d
  let (num, den) := onUnit (4 * x.mantissa)
  let low := (onUnit (4 * x.mantissa - if wide then 1 else 2)).1
  let high := (onUnit (4 * x.mantissa + 2)).1
  let inside (c : Nat) : Bool :=
    if x.mantissa % 2 = 0 then decide (low ≤ c * den) && decide (c * den ≤ high)
    else decide (low < c * den) && decide (c * den < high)
  let below := num / den
  match inside below, inside (below + 1) with
  | true, true => some (divRound num den)
  | true, false => some below
  | false, true => some (below + 1)
  | false, false => none

/-- Move the zeros at the end of `c` into the power of ten; `fuel` bounds their number. -/
def stripZeros : (fuel : Nat) → (c : Nat) → (k : Int) → Nat × Int
  | 0, c, k => (c, k)
  | fuel + 1, c, k => if c % 10 = 0 then stripZeros fuel (c / 10) (k + 1) else (c, k)

/-- The shortest decimal that reads back as `x`, as digits and a power of ten; zero for zero. -/
def shortest (x : Binary64) : Nat × Int :=
  if x.mantissa = 0 then (0, 0)
  else
    let (num, den) := x.magnitude
    let point := decimalPoint num den
    match (List.range 17).findSome? fun n =>
        let k := point - ((n + 1 : Nat) : Int)
        (x.onGrid? k).map fun c => (c, k) with
    | some (c, k) => stripZeros 20 c k
    | none => (num / den, 0)

/-- The text of a number: at least one digit after the point, or an exponent with its sign. -/
def text (x : Binary64) : String :=
  let (c, k) := x.shortest
  let digits := Nat.toDigits 10 c
  let point : Int := digits.length + k
  let sign := if x.negative then ['-'] else []
  let body :=
    if x.mantissa = 0 then ['0', '.', '0']
    else if 0 ≤ k ∧ point ≤ 16 then digits ++ List.replicate k.toNat '0' ++ ['.', '0']
    else if 0 < point ∧ point ≤ 16 then
      digits.take point.toNat ++ ['.'] ++ digits.drop point.toNat
    else if -5 < point ∧ point ≤ 0 then
      ['0', '.'] ++ List.replicate (-point).toNat '0' ++ digits
    else
      let exponent := (if 0 < point then ['+'] else []) ++ (toString (point - 1)).toList
      match digits with
      | [d] => d :: 'e' :: exponent
      | d :: rest => d :: '.' :: rest ++ 'e' :: exponent
      | [] => []
  String.ofList (sign ++ body)

end ApprovalFlow.Binary64

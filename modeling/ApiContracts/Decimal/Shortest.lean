import ApiContracts.Decimal.Binary64

/-!
# Shortest digits

The fewest decimal digits that read back as a given double, and of those the nearest. A double stands for an interval of reals, all those that round to it; for one digit, two digits and so on up to seventeen, the two neighbours of its value on that decimal grid are tested against the interval, and the first grid with a hit gives the digits.
-/

namespace ApiContracts.Decimal

def width (n : Nat) : Nat := (Nat.toDigits 10 n).length

/-- The exponent `d` with `10 ^ (d - 1) ≤ num / den < 10 ^ d`. -/
def decimalExponent (num den : Nat) : Int :=
  let estimate : Int := (width num : Int) - width den
  let reaches : Bool :=
    if 0 ≤ estimate then den * tenTo estimate.toNat ≤ num else den ≤ num * tenTo (-estimate).toNat
  if reaches then estimate + 1 else estimate

/-- The reals that round to a double, as numerators over one denominator: the value between its bounds, which belong to the interval when the significand is even. -/
structure Interval where
  low : Nat
  value : Nat
  high : Nat
  den : Nat
  closed : Bool

def Interval.of (x : Binary64) : Interval :=
  let (m, q) := x.parts
  let lowStep := if m = twoTo 52 ∧ -1074 < q then 1 else 2
  let (scale, den) := if 0 ≤ q then (twoTo q.toNat, 4) else (1, 4 * twoTo (-q).toNat)
  ⟨(4 * m - lowStep) * scale, 4 * m * scale, (4 * m + 2) * scale, den, m % 2 = 0⟩

/-- Whether the fraction `num / den` lies in the interval. -/
def Interval.has (i : Interval) (num den : Nat) : Bool :=
  let n := num * i.den
  if i.closed then i.low * den ≤ n && n ≤ i.high * den else i.low * den < n && n < i.high * den

/-- A whole number of tenths powers, `c * 10 ^ k`, as a fraction. -/
def power (c : Nat) (k : Int) : Nat × Nat :=
  if 0 ≤ k then (c * tenTo k.toNat, 1) else (c, tenTo (-k).toNat)

/-- The grid point next to the value that lies in the interval, on the grid of step `10 ^ k`. -/
def Interval.onGrid (i : Interval) (k : Int) : Option Nat :=
  let (unitNum, unitDen) := power 1 k
  let num := i.value * unitDen
  let den := i.den * unitNum
  let below := num / den
  let inside (c : Nat) : Bool := let (a, b) := power c k; i.has a b
  match inside below, inside (below + 1) with
  | true, true =>
    let r := num % den
    if 2 * r < den then some below
    else if den < 2 * r then some (below + 1)
    else if below % 2 = 0 then some below else some (below + 1)
  | true, false => some below
  | false, true => some (below + 1)
  | false, false => none

/-- Digits without trailing zeros, and the exponent that makes up for them. -/
def stripZeros : Nat → Nat → Int → Nat × Int
  | 0, c, k => (c, k)
  | fuel + 1, c, k => if c ≠ 0 ∧ c % 10 = 0 then stripZeros fuel (c / 10) (k + 1) else (c, k)

/-- The grids of `n`, `n + 1`, … digits, `left` of them. -/
def search (i : Interval) (d : Int) : Nat → Nat → Nat × Int
  | 0, _ => (0, 0)
  | left + 1, n =>
    match i.onGrid (d - n) with
    | some c => stripZeros (width c) c (d - n)
    | none => search i d left (n + 1)

/-- Digits `c` and exponent `k` of a positive finite double: `c * 10 ^ k` reads back as it, and no shorter decimal does. -/
def shortest (x : Binary64) : Nat × Int :=
  let i := Interval.of x
  search i (decimalExponent i.value i.den) 17 1

end ApiContracts.Decimal

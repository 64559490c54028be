import ApiContracts.Decimal.Power

/-!
# Double-precision numbers

A double is its sixty-four bits. All arithmetic on doubles in this library is exact arithmetic on natural numbers followed by one rounding, `ofRatio`: to the nearest double, a tie to the one with the even last bit. A result too large for a finite double has no value here.
-/

namespace ApiContracts.Decimal

/-- An IEEE double, by its bits: sign, eleven bits of exponent, fifty-two of fraction. -/
structure Binary64 where
  bits : UInt64
  deriving DecidableEq

namespace Binary64

def isNegative (x : Binary64) : Bool := twoTo 63 ≤ x.bits.toNat

/-- Exponent and fraction together, without the sign. -/
def magnitude (x : Binary64) : Nat := x.bits.toNat % twoTo 63

def isFinite (x : Binary64) : Bool := x.magnitude < 2047 * twoTo 52

def isZero (x : Binary64) : Bool := x.magnitude == 0

/-- The significand `m` and exponent `q` of a finite double, whose absolute value is `m * 2 ^ q`. -/
def parts (x : Binary64) : Nat × Int :=
  let exponent : Nat := x.magnitude / twoTo 52
  let fraction : Nat := x.magnitude % twoTo 52
  if exponent = 0 then (fraction, -1074) else (twoTo 52 + fraction, (exponent : Int) - 1075)

def ratio (x : Binary64) : Nat × Nat :=
  let (m, q) := x.parts
  if 0 ≤ q then (m * twoTo q.toNat, 1) else (m, twoTo (-q).toNat)

def ofMagnitude (negative : Bool) (magnitude : Nat) : Binary64 :=
  ⟨UInt64.ofNat (if negative then twoTo 63 + magnitude else magnitude)⟩

def zero (negative : Bool) : Binary64 := ofMagnitude negative 0

/-- A quotient rounded to a whole number, a tie to the even one. -/
def roundDiv (num den : Nat) : Nat :=
  let q := num / den
  let r := num % den
  if 2 * r < den then q
  else if den < 2 * r then q + 1
  else if q % 2 = 0 then q else q + 1

/-- `num / den` divided by `2 ^ e`, as a fraction. -/
def shifted (num den : Nat) (e : Int) : Nat × Nat :=
  if 0 ≤ e then (num, den * twoTo e.toNat) else (num * twoTo (-e).toNat, den)

/-- The exponent at which `num / den` has fifty-three significant bits, but none below the smallest. -/
def exponentOf (num den : Nat) : Int :=
  let estimate : Int := max ((num.log2 : Int) - den.log2 - 52) (-1074)
  let (n, d) := shifted num den estimate
  if n < d * twoTo 52 ∧ -1074 < estimate then estimate - 1 else estimate

/-- The double nearest to `num / den`, unless that is beyond the largest. -/
def ofRatio (negative : Bool) (num den : Nat) : Option Binary64 :=
  if num = 0 then some (zero negative)
  else
    let e := exponentOf num den
    let (n, d) := shifted num den e
    let magnitude := (e + 1074).toNat * twoTo 52 + roundDiv n d
    if magnitude < 2047 * twoTo 52 then some (ofMagnitude negative magnitude) else none

def ofInt (n : Int) : Binary64 := (ofRatio (n < 0) n.natAbs 1).getD (zero false)

/-- The product of two finite doubles, rounded once. -/
def mul? (x y : Binary64) : Option Binary64 :=
  let (a, b) := x.ratio
  let (c, d) := y.ratio
  ofRatio (x.isNegative != y.isNegative) (a * c) (b * d)

/-- The quotient of two finite doubles, the second not zero, rounded once. -/
def div? (x y : Binary64) : Option Binary64 :=
  let (a, b) := x.ratio
  let (c, d) := y.ratio
  ofRatio (x.isNegative != y.isNegative) (a * d) (b * c)

def neg (x : Binary64) : Binary64 := ofMagnitude (!x.isNegative) x.magnitude

end Binary64

end ApiContracts.Decimal

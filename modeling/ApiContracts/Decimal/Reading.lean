import ApiContracts.Decimal.Binary64
import ApiContracts.Text.Numeral

/-!
# Reading decimals

Two rules turn a decimal text into a double. `nearest` is exact: the double nearest to the digits times a power of ten. `scaled` works in two roundings, as JSON numbers are read here: the whole significand becomes a double first and is then multiplied or divided by the double of the power of ten.
-/

namespace ApiContracts.Decimal

open Text

/-- The double nearest to `digits * 10 ^ exponent`, unless that is beyond the largest. -/
def nearest (negative : Bool) (digits : Nat) (exponent : Int) : Option Binary64 :=
  if digits = 0 then some (.zero negative)
  else
    let size : Int := (digits.log2 : Int) + 1
    if 310 < exponent then none
    else if 3 * exponent + size < -990 then some (.zero negative)
    else if 0 ≤ exponent then Binary64.ofRatio negative (digits * tenTo exponent.toNat) 1
    else Binary64.ofRatio negative digits (tenTo (-exponent).toNat)

/-- The double of a power of ten up to the three hundred and eighth. -/
def tenPower (k : Nat) : Binary64 := (Binary64.ofRatio false (tenTo k) 1).getD (.zero false)

/-- A double times a power of ten. Small exponents are reached in steps of three hundred and eight; `none` when the result is too large. -/
def scaleBy (f : Binary64) (exponent : Int) : Nat → Option Binary64
  | 0 => some (.zero false)
  | fuel + 1 =>
    if exponent.natAbs ≤ 308 then
      if 0 ≤ exponent then f.mul? (tenPower exponent.natAbs) else f.div? (tenPower exponent.natAbs)
    else if f.isZero then some f
    else if 0 ≤ exponent then none
    else (f.div? (tenPower 308)).bind fun g => scaleBy g (exponent + 308) fuel

/-- The two-rounding reading of `significand * 10 ^ exponent` for a significand below `2 ^ 64`: three steps down make every such number zero. -/
def scaled (negative : Bool) (significand : Nat) (exponent : Int) : Option Binary64 :=
  (scaleBy (.ofInt significand) exponent 4).map fun f => if negative then f.neg else f

/-- Digits and exponent of an unsigned decimal: digits with an optional point among them, at least one digit, and an optional exponent; nothing else. -/
def decimalParts (cs : List Char) : Option (Nat × Int) :=
  let whole := cs.takeWhile Char.isDigit
  let afterWhole := cs.dropWhile Char.isDigit
  let (fraction, afterFraction) := match afterWhole with
    | '.' :: more => (more.takeWhile Char.isDigit, more.dropWhile Char.isDigit)
    | _ => ([], afterWhole)
  (natural 10 (whole ++ fraction)).bind fun digits =>
    let shift : Int := -(fraction.length : Int)
    match afterFraction with
    | [] => some (digits, shift)
    | e :: exponent =>
      if e = 'e' ∨ e = 'E' then
        match exponent with
        | '-' :: ds => (natural 10 ds).map fun n => (digits, shift - n)
        | '+' :: ds => (natural 10 ds).map fun n => (digits, shift + n)
        | ds => (natural 10 ds).map fun n => (digits, shift + n)
      else none

def finite? (cs : List Char) : Option Binary64 :=
  match cs with
  | '-' :: rest => (decimalParts rest).bind fun (digits, exponent) => nearest true digits exponent
  | '+' :: rest => (decimalParts rest).bind fun (digits, exponent) => nearest false digits exponent
  | _ => (decimalParts cs).bind fun (digits, exponent) => nearest false digits exponent

end ApiContracts.Decimal

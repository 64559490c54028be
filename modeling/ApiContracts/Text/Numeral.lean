import ApiContracts.Decimal.Power

/-!
# Numerals

Whole numbers written in digits, with an optional sign and a bound. A numeral has at least one digit and nothing else, and no value wraps: a number outside its bound has no reading.
-/

namespace ApiContracts.Text

/-- The value of a digit in bases up to thirty-six, letters of either case. -/
def digitValue (base : Nat) (c : Char) : Option Nat :=
  let n := c.toNat
  let v :=
    if 48 ≤ n ∧ n ≤ 57 then n - 48
    else if 97 ≤ n ∧ n ≤ 122 then n - 87
    else if 65 ≤ n ∧ n ≤ 90 then n - 55
    else base
  if v < base then some v else none

/-- The number that digits denote after those that denoted `acc`. -/
def digitsFrom (base : Nat) (acc : Nat) : List Char → Option Nat
  | [] => some acc
  | c :: cs => (digitValue base c).bind fun d => digitsFrom base (acc * base + d) cs

/-- A natural number: one digit or more. -/
def natural (base : Nat) : List Char → Option Nat
  | [] => none
  | c :: cs => digitsFrom base 0 (c :: cs)

/-- A natural number with an optional plus sign, no greater than `most`. -/
def bounded (base most : Nat) (cs : List Char) : Option Nat :=
  let digits := match cs with
    | '+' :: rest => rest
    | _ => cs
  (natural base digits).bind fun n => if n ≤ most then some n else none

/-- An integer with an optional sign, in `-2^63 .. 2^63 - 1`. -/
def signed64 (cs : List Char) : Option Int :=
  let read (negative : Bool) (digits : List Char) : Option Int :=
    (natural 10 digits).bind fun n =>
      let value : Int := if negative then -(n : Int) else n
      if isSigned64 value then some value else none
  match cs with
  | '-' :: rest => read true rest
  | '+' :: rest => read false rest
  | _ => read false cs

/-- The hexadecimal digits of a number, without leading zeros. -/
def hexDigits (n : Nat) : List Char := Nat.toDigits 16 n

end ApiContracts.Text

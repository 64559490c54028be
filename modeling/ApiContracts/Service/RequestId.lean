import ApiContracts.Text.Blank
import ApiContracts.Decimal.Power

/-!
# Request ids

An id is a number of a hundred and twenty-eight bits in twenty-six digits of base thirty-two, whose letters leave out those that look like digits or like each other. A client's id is kept, in capitals; bits beyond the number are dropped.
-/

namespace ApiContracts.RequestId

open Text

def alphabet : List Char := "0123456789ABCDEFGHJKMNPQRSTVWXYZ".toList

/-- The value of a digit, in either letter case. -/
def digit? (c : Char) : Option Nat := alphabet.idxOf? c.toUpper

/-- The number that digits denote behind those that denoted `acc`. -/
def value? (acc : Nat) : List Char → Option Nat
  | [] => some acc
  | c :: cs => (digit? c).bind fun d => value? (acc * 32 + d) cs

/-- The last `count` digits of a number. -/
def digitsOf (n : Nat) : Nat → List Char
  | 0 => []
  | count + 1 => digitsOf (n / 32) count ++ [alphabet.getD (n % 32) '0']

/-- The id in a header, if it is one. -/
def ofHeader? (header : String) : Option String :=
  let cs := trim header.toList
  if cs.length = 26 then
    (value? 0 cs).map fun n => String.ofList (digitsOf (n % twoTo 128) 26)
  else none

end ApiContracts.RequestId

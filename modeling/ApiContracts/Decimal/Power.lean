/-!
# Powers

The two bases that numbers are written in. Everything about sizes of numbers is said with these.
-/

namespace ApiContracts

/-- Two to a power: the number of values of so many bits. -/
def twoTo (n : Nat) : Nat := Nat.pow 2 n

def tenTo (n : Nat) : Nat := Nat.pow 10 n

def isSigned64 (n : Int) : Bool := -(twoTo 63 : Int) ≤ n && n < (twoTo 63 : Int)

end ApiContracts

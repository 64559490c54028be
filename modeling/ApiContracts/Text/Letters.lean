/-!
# Letters of the wire

Protocol names (methods, header names, format words) are ASCII, and their letters are compared without regard to case. Characters outside ASCII are left alone and differ from every letter.
-/

namespace ApiContracts.Text

def lower (s : String) : String := String.ofList (s.toList.map Char.toLower)

def upper (s : String) : String := String.ofList (s.toList.map Char.toUpper)

/-- The text with its first letter made a capital. -/
def capitalized (s : String) : String :=
  match s.toList with
  | [] => ""
  | c :: cs => String.ofList (c.toUpper :: cs)

/-- Equality that ignores the case of ASCII letters. -/
def sameLetters (a b : String) : Bool := lower a == lower b

end ApiContracts.Text

import ApiContracts.Decimal.Reading

/-!
# Scalars of TOML

Numbers, truth values and moments, which stand without quotes. Digits may be grouped by single underscores between them, and a decimal number has no leading zero. A moment is a date, a time, or both with an optional offset, and it must exist in the calendar.
-/

namespace ApiContracts.Toml

open Text

inductive Scalar where
  | text (s : String)
  | integer (n : Int)
  | float (written : String)
  | boolean (b : Bool)
  | moment (written : String)
  deriving DecidableEq

def isGrouped (base : Nat) : List Char → Bool
  | [] => false
  | [c] => (digitValue base c).isSome
  | c :: '_' :: rest => (digitValue base c).isSome && isGrouped base rest
  | c :: rest => (digitValue base c).isSome && isGrouped base rest

def ungrouped (cs : List Char) : List Char := cs.filter (· ≠ '_')

def grouped? (base : Nat) (cs : List Char) : Option Nat :=
  if isGrouped base cs then natural base (ungrouped cs) else none

def hasLeadingZero : List Char → Bool
  | '0' :: _ :: _ => true
  | _ => false

def decimal? (cs : List Char) : Option Nat := if hasLeadingZero cs then none else grouped? 10 cs

/-- What follows an optional sign, and whether the sign is a minus. -/
def unsigned : List Char → Bool × List Char
  | '-' :: rest => (true, rest)
  | '+' :: rest => (false, rest)
  | cs => (false, cs)

/-- An integer of up to one hundred and twenty-eight bits; the other bases take no sign. -/
def integer? (cs : List Char) : Option Int :=
  let fitting (n : Nat) : Option Int := if n < twoTo 128 then some n else none
  match cs with
  | '0' :: 'x' :: digits => (grouped? 16 digits).bind fitting
  | '0' :: 'o' :: digits => (grouped? 8 digits).bind fitting
  | '0' :: 'b' :: digits => (grouped? 2 digits).bind fitting
  | _ =>
    match unsigned cs with
    | (true, digits) => (decimal? digits).bind fun n => if n ≤ twoTo 127 then some (-(n : Int)) else none
    | (false, digits) => (decimal? digits).bind fitting

/-- Whether the exponent of a float is well formed, from its letter on; it may be missing. -/
def isExponent : List Char → Bool
  | [] => true
  | c :: rest => (c = 'e' || c = 'E') && isGrouped 10 (unsigned rest).2

/-- Whether a text is a finite float: a whole part with a fraction, an exponent, or both. -/
def isFinite (cs : List Char) : Bool :=
  let inWhole (c : Char) : Bool := c.isDigit || c = '_'
  let whole := cs.takeWhile inWhole
  (decimal? whole).isSome &&
    match cs.dropWhile inWhole with
    | [] => false
    | '.' :: rest => isGrouped 10 (rest.takeWhile inWhole) && isExponent (rest.dropWhile inWhole)
    | exponent => isExponent exponent

def isFloat (cs : List Char) : Bool :=
  let digits := (unsigned cs).2
  digits = "inf".toList || digits = "nan".toList || (isFinite digits && (Decimal.finite? (ungrouped cs)).isSome)

def isLeap (year : Nat) : Bool := year % 4 = 0 && (year % 100 ≠ 0 || year % 400 = 0)

def daysOf (year month : Nat) : Nat :=
  if month = 2 then if isLeap year then 29 else 28
  else if month = 4 ∨ month = 6 ∨ month = 9 ∨ month = 11 then 30
  else 31

def afterDate? : List Char → Option (List Char)
  | y1 :: y2 :: y3 :: y4 :: '-' :: m1 :: m2 :: '-' :: d1 :: d2 :: rest => do
    let year ← natural 10 [y1, y2, y3, y4]
    let month ← natural 10 [m1, m2]
    let day ← natural 10 [d1, d2]
    if 1 ≤ month ∧ month ≤ 12 ∧ 1 ≤ day ∧ day ≤ daysOf year month then return rest else none
  | _ => none

/-- What follows a number of two digits that is no greater than `most`. -/
def afterPair? (most : Nat) : List Char → Option (List Char)
  | a :: b :: rest => (natural 10 [a, b]).bind fun n => if n ≤ most then some rest else none
  | _ => none

/-- What follows the seconds of a time, which may be missing and may have a fraction; a minute may have a leap second. -/
def afterSeconds? : List Char → Option (List Char)
  | ':' :: rest => do
    match ← afterPair? 60 rest with
    | '.' :: fraction =>
      if (fraction.takeWhile Char.isDigit).isEmpty then none else return fraction.dropWhile Char.isDigit
    | others => return others
  | cs => some cs

def afterTime? (cs : List Char) : Option (List Char) := do
  match ← afterPair? 23 cs with
  | ':' :: rest => afterSeconds? (← afterPair? 59 rest)
  | _ => none

def isOffset : List Char → Bool
  | ['Z'] | ['z'] => true
  | '+' :: rest | '-' :: rest =>
    match afterPair? 23 rest with
    | some (':' :: minutes) => afterPair? 59 minutes = some []
    | _ => false
  | _ => false

/-- Whether a text is a moment. Between date and time stands a letter or a space. -/
def isMoment (cs : List Char) : Bool :=
  match afterDate? cs with
  | some [] => true
  | some (c :: time) =>
    (c = 'T' || c = 't' || c = ' ') &&
      match afterTime? time with
      | some [] => true
      | some offset => isOffset offset
      | none => false
  | none => afterTime? cs = some []

/-- A scalar written without quotes. -/
def Scalar.ofWord? (cs : List Char) : Option Scalar :=
  if cs = "true".toList then some (.boolean true)
  else if cs = "false".toList then some (.boolean false)
  else if isMoment cs then some (.moment (String.ofList cs))
  else if isFloat cs then some (.float (String.ofList cs))
  else (integer? cs).map .integer

end ApiContracts.Toml

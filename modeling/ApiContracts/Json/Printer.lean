import ApiContracts.Json.Value

/-!
# Writing JSON

The compact and the indented text of a value. Strings escape only the quote, the backslash and the control characters. A double has its shortest digits, written plainly while the first digit stands between the fifth decimal and the sixteenth place before the point, and with an exponent outside.
-/

namespace ApiContracts.Json

open Decimal Text

def escapeJsonChar (c : Char) : List Char :=
  if c = '"' then ['\\', '"']
  else if c = '\\' then ['\\', '\\']
  else if c = '\n' then ['\\', 'n']
  else if c = '\r' then ['\\', 'r']
  else if c = '\t' then ['\\', 't']
  else if c = '\x08' then ['\\', 'b']
  else if c = '\x0c' then ['\\', 'f']
  else if c.toNat < 16 then ['\\', 'u', '0', '0', '0'] ++ hexDigits c.toNat
  else if c.toNat < 32 then ['\\', 'u', '0', '0'] ++ hexDigits c.toNat
  else [c]

def stringText (s : String) : String := String.ofList ('"' :: s.toList.flatMap escapeJsonChar ++ ['"'])

/-- Digits with the point after the first `position`, which may be negative or beyond the digits. -/
def plainText (digits : List Char) (position : Int) : List Char :=
  if position ≤ 0 then ['0', '.'] ++ List.replicate (-position).toNat '0' ++ digits
  else if (digits.length : Int) ≤ position then
    digits ++ List.replicate (position.toNat - digits.length) '0' ++ ['.', '0']
  else digits.take position.toNat ++ ['.'] ++ digits.drop position.toNat

/-- Digits with a point after the first and the exponent of the first. -/
def exponentText (digits : List Char) (exponent : Int) : List Char :=
  let mantissa := match digits with
    | first :: second :: rest => first :: '.' :: second :: rest
    | ds => ds
  mantissa ++ ['e', if exponent < 0 then '-' else '+'] ++ Nat.toDigits 10 exponent.natAbs

def doubleText (x : Binary64) : String :=
  let sign := if x.isNegative then ['-'] else []
  let body :=
    if x.isZero then ['0', '.', '0']
    else
      let (c, k) := shortest x
      let digits := Nat.toDigits 10 c
      let exponent : Int := k + digits.length - 1
      if -5 ≤ exponent ∧ exponent ≤ 15 then plainText digits (exponent + 1) else exponentText digits exponent
  String.ofList (sign ++ body)

mutual

/-- The text of a value without any blanks. -/
def Value.compact : Value → String
  | .null => "null"
  | .bool b => if b then "true" else "false"
  | .int n => toString n
  | .double x => doubleText x
  | .str s => stringText s
  | .arr items => "[" ++ ",".intercalate (compactItems items) ++ "]"
  | .obj members => "\x7b" ++ ",".intercalate (compactMembers members) ++ "\x7d"

def compactItems : List Value → List String
  | [] => []
  | v :: rest => v.compact :: compactItems rest

def compactMembers : List (String × Value) → List String
  | [] => []
  | (k, v) :: rest => (stringText k ++ ":" ++ v.compact) :: compactMembers rest

end

/-- Parts on lines of their own between two brackets, each two blanks further in than the brackets. -/
def block (opening closing : String) (depth : Nat) (parts : List String) : String :=
  if parts.isEmpty then opening ++ closing
  else
    let inner := "\n" ++ String.ofList (List.replicate (2 * (depth + 1)) ' ')
    let outer := "\n" ++ String.ofList (List.replicate (2 * depth) ' ')
    opening ++ inner ++ ("," ++ inner).intercalate parts ++ outer ++ closing

mutual

/-- The text of a value with one member or item a line, inside `depth` brackets. -/
def Value.indented (depth : Nat) : Value → String
  | .arr items => block "[" "]" depth (indentedItems (depth + 1) items)
  | .obj members => block "\x7b" "\x7d" depth (indentedMembers (depth + 1) members)
  | .null => "null"
  | .bool b => if b then "true" else "false"
  | .int n => toString n
  | .double x => doubleText x
  | .str s => stringText s

def indentedItems (depth : Nat) : List Value → List String
  | [] => []
  | v :: rest => v.indented depth :: indentedItems depth rest

def indentedMembers (depth : Nat) : List (String × Value) → List String
  | [] => []
  | (k, v) :: rest => (stringText k ++ ": " ++ v.indented depth) :: indentedMembers depth rest

end

def Value.pretty (v : Value) : String := v.indented 0

end ApiContracts.Json

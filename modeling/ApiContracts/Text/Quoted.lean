import ApiContracts.Text.Printing
import ApiContracts.Text.Numeral

/-!
# Quoted texts

A text between double quotes, as emitted source code and messages write it. `escape` gives each character its written form; `quote` puts the quotes around.
-/

namespace ApiContracts.Text

/-- A character by number: a backslash, the letter u, and the hexadecimal code point in braces. -/
def byNumber (c : Char) : List Char := ['\\', 'u', '\x7b'] ++ hexDigits c.toNat ++ ['\x7d']

def escapeChar (c : Char) : List Char :=
  if c = '\x00' then ['\\', '0']
  else if c = '\t' then ['\\', 't']
  else if c = '\r' then ['\\', 'r']
  else if c = '\n' then ['\\', 'n']
  else if c = '\\' then ['\\', '\\']
  else if c = '"' then ['\\', '"']
  else if isGraphemeExtending c then byNumber c
  else if isPrinting c then [c]
  else byNumber c

def escape (cs : List Char) : List Char := cs.flatMap escapeChar

def quote (s : String) : String := String.ofList ('"' :: escape s.toList ++ ['"'])

end ApiContracts.Text

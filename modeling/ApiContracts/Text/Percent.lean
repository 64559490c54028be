import ApiContracts.Text.Utf8
import ApiContracts.Text.Numeral
import ApiContracts.Text.Pieces

/-!
# Percent-encoding

A percent sign with two hexadecimal digits stands for one byte; a percent sign without them stands for itself. The decoded bytes are read as UTF-8, with broken sequences replaced. A query string is a list of pairs in this encoding, with a plus sign for the space.
-/

namespace ApiContracts.Text

def hexByte (b : UInt8) : Option Nat := digitValue 16 (Char.ofNat b.toNat)

def percentDecodeBytes : List UInt8 → List UInt8
  | [] => []
  | [b] => [b]
  | [b, c] => [b, c]
  | b :: h :: l :: rest =>
    if b == 0x25 then
      match hexByte h, hexByte l with
      | some high, some low => UInt8.ofNat (high * 16 + low) :: percentDecodeBytes rest
      | _, _ => b :: percentDecodeBytes (h :: l :: rest)
    else b :: percentDecodeBytes (h :: l :: rest)

def percentDecode (s : String) : String := textLossy (percentDecodeBytes (bytesOf s))

/-- One side of a query pair: plus signs are spaces. -/
def formDecode (bytes : List UInt8) : String :=
  textLossy (percentDecodeBytes (bytes.map fun b => if b == 0x2b then 0x20 else b))

/-- The pieces of bytes between occurrences of `sep`. -/
def bytePieces (sep : UInt8) : List UInt8 → List (List UInt8)
  | [] => [[]]
  | b :: bs =>
    if b == sep then [] :: bytePieces sep bs
    else
      match bytePieces sep bs with
      | [] => [[b]]
      | first :: others => (b :: first) :: others

/-- A pair is cut at its first equals sign; without one the value is empty. -/
def formPair (bytes : List UInt8) : String × String :=
  let name := bytes.takeWhile (· != 0x3d)
  (formDecode name, formDecode (bytes.drop (name.length + 1)))

/-- The pairs of a query string, in order; empty pairs are skipped. -/
def formPairs (query : String) : List (String × String) :=
  ((bytePieces 0x26 (bytesOf query)).filter (!·.isEmpty)).map formPair

end ApiContracts.Text

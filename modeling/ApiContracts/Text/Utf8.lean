/-!
# Bytes and characters

Texts as bytes and bytes as texts. `decode?` reads well-formed UTF-8 only; `decodeLossy` reads any bytes, writing the replacement character once for each longest start of a broken sequence.
-/

namespace ApiContracts.Text

def encode (cs : List Char) : List UInt8 := cs.flatMap String.utf8EncodeChar

def bytesOf (s : String) : List UInt8 := s.toUTF8.toList

def isTail (b : UInt8) : Bool := 0x80 ≤ b && b ≤ 0xbf

/-- The least and greatest byte that may come second in a character starting with `b`. -/
def secondRange (b : UInt8) : UInt8 × UInt8 :=
  if b == 0xe0 then (0xa0, 0xbf)
  else if b == 0xed then (0x80, 0x9f)
  else if b == 0xf0 then (0x90, 0xbf)
  else if b == 0xf4 then (0x80, 0x8f)
  else (0x80, 0xbf)

def isSecond (b c : UInt8) : Bool := (secondRange b).1 ≤ c && c ≤ (secondRange b).2

def tailBits (b : UInt8) : Nat := b.toNat - 0x80

/-- The character that starts with byte `b`, if it is well formed, and how many of the following bytes it takes; a broken one takes the longest start of a character. -/
def decodeHead (b : UInt8) (rest : List UInt8) : Option Char × Nat :=
  if b < 0x80 then (some (Char.ofNat b.toNat), 0)
  else if 0xc2 ≤ b && b ≤ 0xdf then
    match rest with
    | c :: _ => if isTail c then (some (Char.ofNat ((b.toNat - 0xc0) * 64 + tailBits c)), 1) else (none, 0)
    | [] => (none, 0)
  else if 0xe0 ≤ b && b ≤ 0xef then
    match rest with
    | c :: more =>
      if !isSecond b c then (none, 0)
      else
        match more with
        | d :: _ =>
          if isTail d then (some (Char.ofNat ((b.toNat - 0xe0) * 4096 + tailBits c * 64 + tailBits d)), 2)
          else (none, 1)
        | [] => (none, 1)
    | [] => (none, 0)
  else if 0xf0 ≤ b && b ≤ 0xf4 then
    match rest with
    | c :: more =>
      if !isSecond b c then (none, 0)
      else
        match more with
        | d :: last =>
          if !isTail d then (none, 1)
          else
            match last with
            | e :: _ =>
              if isTail e then
                (some (Char.ofNat ((b.toNat - 0xf0) * 262144 + tailBits c * 4096 + tailBits d * 64 + tailBits e)), 3)
              else (none, 2)
            | [] => (none, 2)
        | [] => (none, 1)
    | [] => (none, 0)
  else (none, 0)

def replacement : Char := '\uFFFD'

def decodeLossy : List UInt8 → List Char
  | [] => []
  | b :: rest =>
    let head := decodeHead b rest
    head.1.getD replacement :: decodeLossy (rest.drop head.2)
termination_by bytes => bytes.length
decreasing_by simp only [List.length_drop, List.length_cons]; omega

def decode? : List UInt8 → Option (List Char)
  | [] => some []
  | b :: rest =>
    match decodeHead b rest with
    | (some c, n) => (decode? (rest.drop n)).map (c :: ·)
    | (none, _) => none
termination_by bytes => bytes.length
decreasing_by simp only [List.length_drop, List.length_cons]; omega

def textLossy (bytes : List UInt8) : String := String.ofList (decodeLossy bytes)

end ApiContracts.Text

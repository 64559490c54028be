import ApiContracts.Json.Cursor
import ApiContracts.Json.Value
import ApiContracts.Decimal.Reading

/-!
# Reading JSON

One value from a text. Members stay as they are written, in their order and with repeated keys, because a description that repeats a key is refused while a request body that does so is not; `Value.canonical` settles the matter for the latter. At most a hundred and twenty-seven brackets may be open at once.

The functions that read nested values recurse on a bound, which `readValue` takes from the length of the text: each call reads at least one byte or returns.
-/

namespace ApiContracts.Json

open Decimal Text

/-- A step of reading: what was read, and the cursor behind it. -/
abbrev Read (α : Type) := Except ReadError (α × Cursor)

def readWord (value : Value) : List UInt8 → Cursor → Read Value
  | [], c => .ok (value, c)
  | w :: ws, c =>
    match c.rest with
    | [] => .error (c.fault .eofInValue)
    | b :: _ => if b == w then readWord value ws c.next else .error (c.next.fault .expectedIdent)

def byteDigit (b : UInt8) : Option Nat := if 0x30 ≤ b && b ≤ 0x39 then some (b.toNat - 0x30) else none

/-- The greatest significand: the largest word of sixty-four bits. -/
def mostSignificand : Nat := twoTo 64 - 1

/-- Digits added to a significand while it stays within a word: the significand, the number of digits taken, the number left over, and the bytes behind them all. -/
def takeDigits (significand taken : Nat) : List UInt8 → Nat × Nat × Nat
  | [] => (significand, taken, 0)
  | b :: rest =>
    match byteDigit b with
    | none => (significand, taken, 0)
    | some d =>
      if significand * 10 + d ≤ mostSignificand then takeDigits (significand * 10 + d) (taken + 1) rest
      else (significand, taken, ((b :: rest).takeWhile fun x => (byteDigit x).isSome).length)

/-- The double of a significand and an exponent, at the cursor behind its text. -/
def makeDouble (negative : Bool) (significand : Nat) (exponent : Int) (c : Cursor) : Read Value :=
  match scaled negative significand exponent with
  | some x => .ok (.double x, c)
  | none => .error (c.fault .numberOutOfRange)

/-- The digits of an exponent after those read so far; beyond the largest signed word of thirty-two bits it is out of range at once, unless it makes the number zero. -/
def readExponentDigits (negative : Bool) (significand : Nat) (shift : Int) (down : Bool) (exponent : Nat) (fuel : Nat)
    (c : Cursor) : Read Value :=
  let finish : Read Value := makeDouble negative significand (if down then shift - exponent else shift + exponent) c
  match fuel, c.rest with
  | 0, _ => finish
  | _, [] => finish
  | fuel + 1, b :: rest =>
    match byteDigit b with
    | none => finish
    | some d =>
      if exponent * 10 + d ≤ twoTo 31 - 1 then
        readExponentDigits negative significand shift down (exponent * 10 + d) fuel c.next
      else if significand ≠ 0 ∧ !down then .error (c.next.fault .numberOutOfRange)
      else
        let more := (rest.takeWhile fun x => (byteDigit x).isSome).length
        .ok (.double (.zero negative), Cursor.advance (more + 1) c)

/-- The exponent, from behind its letter. -/
def readExponent (negative : Bool) (significand : Nat) (shift : Int) (c : Cursor) : Read Value :=
  let (down, c) := match c.rest with
    | 0x2b :: _ => (false, c.next)
    | 0x2d :: _ => (true, c.next)
    | _ => (false, c)
  match c.rest with
  | [] => .error (c.fault .eofInValue)
  | b :: _ =>
    match byteDigit b with
    | none => .error (c.next.fault .invalidNumber)
    | some d => readExponentDigits negative significand shift down d c.rest.length c.next

def isExponentLetter (b : UInt8) : Bool := b == 0x65 || b == 0x45

def finishDouble (negative : Bool) (significand : Nat) (shift : Int) (c : Cursor) : Read Value :=
  match c.rest with
  | b :: _ => if isExponentLetter b then readExponent negative significand shift c.next else makeDouble negative significand shift c
  | [] => makeDouble negative significand shift c

/-- The digits behind the point, with `shift` for digits left out before it. -/
def readFraction (negative : Bool) (significand : Nat) (shift : Int) (c : Cursor) : Read Value :=
  let (s, taken, left) := takeDigits significand 0 c.rest
  if taken + left = 0 then
    match c.rest with
    | [] => .error (c.fault .eofInValue)
    | _ => .error (c.faultAhead .invalidNumber)
  else finishDouble negative s (shift - taken) (Cursor.advance (taken + left) c)

/-- The end of a number whose whole digits have been read; digits that did not fit only count. -/
def finishNumber (negative : Bool) (significand left : Nat) (c : Cursor) : Read Value :=
  let whole : Read Value :=
    if left ≠ 0 then makeDouble negative significand left c
    else if !negative then .ok (.int significand, c)
    else if significand = 0 ∨ twoTo 63 < significand then .ok (.double (Binary64.ofInt significand).neg, c)
    else .ok (.int (-(significand : Int)), c)
  match c.rest with
  | b :: _ =>
    if b == 0x2e then readFraction negative significand left c.next
    else if isExponentLetter b then readExponent negative significand left c.next
    else whole
  | [] => whole

/-- A number, from behind its sign. -/
def readNumber (negative : Bool) (c : Cursor) : Read Value :=
  match c.rest with
  | [] => .error (c.fault .eofInValue)
  | b :: rest =>
    match byteDigit b with
    | none => .error (c.next.fault .invalidNumber)
    | some 0 =>
      match rest with
      | d :: _ =>
        if (byteDigit d).isSome then .error (c.next.faultAhead .invalidNumber)
        else finishNumber negative 0 0 c.next
      | [] => finishNumber negative 0 0 c.next
    | some _ =>
      let (s, taken, left) := takeDigits 0 0 c.rest
      finishNumber negative s left (Cursor.advance (taken + left) c)

def readHex (c : Cursor) : Read Nat :=
  match c.rest with
  | a :: b :: d :: e :: _ =>
    let behind := Cursor.advance 4 c
    match natural 16 ([a, b, d, e].map fun x => Char.ofNat x.toNat) with
    | some n => .ok (n, behind)
    | none => .error (behind.fault .invalidEscape)
  | short => .error ((Cursor.advance short.length c).fault .eofInString)

def readPairByte (b : UInt8) (c : Cursor) : Except ReadError Cursor :=
  match c.rest with
  | [] => .error (c.fault .eofInString)
  | x :: _ => if x == b then .ok c.next else .error (c.next.fault .unfinishedSurrogate)

/-- A character given by number, from behind the letter; outside the first plane it is a pair of numbers. -/
def readUnicode (c : Cursor) : Except ReadError (Char × Cursor) := do
  let (high, c) ← readHex c
  if 0xdc00 ≤ high && high ≤ 0xdfff then throw (c.fault .loneSurrogate)
  else if high < 0xd800 || 0xdbff < high then return (Char.ofNat high, c)
  else
    let c ← readPairByte 0x5c c
    let c ← readPairByte 0x75 c
    let (low, c) ← readHex c
    if low < 0xdc00 || 0xdfff < low then throw (c.fault .loneSurrogate)
    else return (Char.ofNat ((high - 0xd800) * 1024 + (low - 0xdc00) + 0x10000), c)

def readEscape (c : Cursor) : Read Char :=
  match c.rest with
  | [] => .error (c.fault .eofInString)
  | b :: _ =>
    let behind := c.next
    if b == 0x22 then .ok ('"', behind)
    else if b == 0x5c then .ok ('\\', behind)
    else if b == 0x2f then .ok ('/', behind)
    else if b == 0x62 then .ok ('\x08', behind)
    else if b == 0x66 then .ok ('\x0c', behind)
    else if b == 0x6e then .ok ('\n', behind)
    else if b == 0x72 then .ok ('\r', behind)
    else if b == 0x74 then .ok ('\t', behind)
    else if b == 0x75 then readUnicode behind
    else .error (behind.fault .invalidEscape)

/-- The bytes of a string up to its closing quote, in reverse behind those read so far. -/
def readStringBytes : Nat → List UInt8 → Cursor → Read (List UInt8)
  | 0, _, c => .error (c.fault .eofInString)
  | fuel + 1, seen, c =>
    match c.rest with
    | [] => .error (c.fault .eofInString)
    | b :: _ =>
      if b == 0x22 then .ok (seen, c.next)
      else if b == 0x5c then
        match readEscape c.next with
        | .ok (ch, behind) => readStringBytes fuel ((encode [ch]).reverse ++ seen) behind
        | .error e => .error e
      else if b < 0x20 then .error (c.next.fault .controlCharacter)
      else readStringBytes fuel (b :: seen) c.next

/-- A string, from behind its opening quote. -/
def readString (c : Cursor) : Except ReadError (String × Cursor) := do
  let (bytes, c) ← readStringBytes (c.rest.length + 1) [] c
  match decode? bytes.reverse with
  | some cs => return (String.ofList cs, c)
  | none => throw (c.fault .invalidUnicode)

/-- The key of a member and the colon behind it, from behind the opening quote of the key. -/
def readKey (c : Cursor) : Except ReadError (String × Cursor) := do
  let (key, c) ← readString c
  let c := c.skipBlanks
  match c.rest with
  | [] => throw (c.fault .eofInObject)
  | b :: _ => if b == 0x3a then return (key, c.next) else throw (c.faultAhead .expectedColon)

/-- Whether another item follows in a list, with the cursor at it or behind the closing bracket. -/
def nextItem (first : Bool) (c : Cursor) : Read Bool :=
  let c := c.skipBlanks
  match c.rest with
  | [] => .error (c.fault .eofInList)
  | b :: _ =>
    if b == 0x5d then .ok (false, c.next)
    else if first then .ok (true, c)
    else if b == 0x2c then
      let c := c.next.skipBlanks
      match c.rest with
      | [] => .error (c.fault .eofInValue)
      | d :: _ => if d == 0x5d then .error (c.faultAhead .trailingComma) else .ok (true, c)
    else .error (c.faultAhead .expectedListEnd)

/-- Whether another member follows in an object, with the cursor behind the quote of its key or behind the closing brace. -/
def nextMember (first : Bool) (c : Cursor) : Read Bool :=
  let c := c.skipBlanks
  match c.rest with
  | [] => .error (c.fault .eofInObject)
  | b :: _ =>
    if b == 0x7d then .ok (false, c.next)
    else if first then
      if b == 0x22 then .ok (true, c.next) else .error (c.faultAhead .keyNotString)
    else if b == 0x2c then
      let c := c.next.skipBlanks
      match c.rest with
      | [] => .error (c.fault .eofInValue)
      | d :: _ =>
        if d == 0x22 then .ok (true, c.next)
        else if d == 0x7d then .error (c.faultAhead .trailingComma)
        else .error (c.faultAhead .keyNotString)
    else .error (c.faultAhead .expectedObjectEnd)

/-- The number of brackets that may be open at once, and one. -/
def maxDepth : Nat := 128

mutual

/-- A value at the cursor, inside `depth` open brackets. -/
def readAny : Nat → Nat → Cursor → Read Value
  | 0, _, c => .error (c.fault .eofInValue)
  | fuel + 1, depth, c =>
    let c := c.skipBlanks
    match c.rest with
    | [] => .error (c.fault .eofInValue)
    | b :: _ =>
      if b == 0x6e then readWord .null (bytesOf "ull") c.next
      else if b == 0x74 then readWord (.bool true) (bytesOf "rue") c.next
      else if b == 0x66 then readWord (.bool false) (bytesOf "alse") c.next
      else if b == 0x2d then readNumber true c.next
      else if (byteDigit b).isSome then readNumber false c
      else if b == 0x22 then (readString c.next).map fun (s, behind) => (.str s, behind)
      else if b == 0x5b || b == 0x7b then
        if maxDepth ≤ depth + 1 then .error (c.faultAhead .tooDeep)
        else if b == 0x5b then
          (readItems fuel (depth + 1) true c.next).map fun (items, behind) => (.arr items, behind)
        else (readMembers fuel (depth + 1) true c.next).map fun (members, behind) => (.obj members, behind)
      else .error (c.faultAhead .expectedValue)

/-- The items of a list that have not been read, up to the closing bracket. -/
def readItems : Nat → Nat → Bool → Cursor → Except ReadError (List Value × Cursor)
  | 0, _, _, c => .error (c.fault .eofInList)
  | fuel + 1, depth, first, c => do
    let (more, c) ← nextItem first c
    if more then
      let (item, c) ← readAny fuel depth c
      let (items, c) ← readItems fuel depth false c
      return (item :: items, c)
    else return ([], c)

/-- The members of an object that have not been read, up to the closing brace. -/
def readMembers : Nat → Nat → Bool → Cursor → Except ReadError (List (String × Value) × Cursor)
  | 0, _, _, c => .error (c.fault .eofInObject)
  | fuel + 1, depth, first, c => do
    let (more, c) ← nextMember first c
    if more then
      let (key, c) ← readKey c
      let (value, c) ← readAny fuel depth c
      let (members, c) ← readMembers fuel depth false c
      return ((key, value) :: members, c)
    else return ([], c)

end

def readValue (c : Cursor) : Read Value := readAny (2 * c.rest.length + 2) 0 c

/-- Nothing but blanks may follow the value of a text. -/
def readEnd (c : Cursor) : Except ReadError Unit :=
  let c := c.skipBlanks
  match c.rest with
  | [] => .ok ()
  | _ => .error (c.faultAhead .trailingCharacters)

/-- The value of a whole text in canonical form. -/
def Value.ofBytes (bytes : List UInt8) : Except ReadError Value := do
  let (value, c) ← readValue (.start bytes)
  readEnd c
  return value.canonical

def Value.ofString (s : String) : Except ReadError Value := ofBytes (bytesOf s)

end ApiContracts.Json

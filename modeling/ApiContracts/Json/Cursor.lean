import ApiContracts.Text.Utf8

/-!
# Places in a text

A cursor stands before the next byte of a text and knows its line and column. Lines count from one. The column is the number of bytes read on the line, so it is zero right behind a line feed. A fault is reported at the cursor, or one byte further on when the byte ahead is to blame.
-/

namespace ApiContracts.Json

inductive Fault where
  | eofInValue
  | eofInString
  | eofInList
  | eofInObject
  | expectedValue
  | expectedIdent
  | expectedColon
  | expectedListEnd
  | expectedObjectEnd
  | keyNotString
  | trailingComma
  | trailingCharacters
  | invalidNumber
  | numberOutOfRange
  | invalidEscape
  | invalidUnicode
  | loneSurrogate
  | unfinishedSurrogate
  | controlCharacter
  | tooDeep
  /-- A well-formed text of the wrong shape. -/
  | shape (message : String)
  deriving DecidableEq

def Fault.message : Fault → String
  | .eofInValue => "EOF while parsing a value"
  | .eofInString => "EOF while parsing a string"
  | .eofInList => "EOF while parsing a list"
  | .eofInObject => "EOF while parsing an object"
  | .expectedValue => "expected value"
  | .expectedIdent => "expected ident"
  | .expectedColon => "expected `:`"
  | .expectedListEnd => "expected `,` or `]`"
  | .expectedObjectEnd => "expected `,` or `\x7d`"
  | .keyNotString => "key must be a string"
  | .trailingComma => "trailing comma"
  | .trailingCharacters => "trailing characters"
  | .invalidNumber => "invalid number"
  | .numberOutOfRange => "number out of range"
  | .invalidEscape => "invalid escape"
  | .invalidUnicode => "invalid unicode code point"
  | .loneSurrogate => "lone leading surrogate in hex escape"
  | .unfinishedSurrogate => "unexpected end of hex escape"
  | .controlCharacter => "control character (\\u0000-\\u001F) found while parsing a string"
  | .tooDeep => "recursion limit exceeded"
  | .shape message => message

/-- A fault with the line and column where it was found. -/
structure ReadError where
  fault : Fault
  line : Nat
  column : Nat
  deriving DecidableEq

def ReadError.message (e : ReadError) : String := s!"{e.fault.message} at line {e.line} column {e.column}"

/-- The bytes still to be read, and where they start. -/
structure Cursor where
  rest : List UInt8
  line : Nat
  column : Nat

namespace Cursor

def start (bytes : List UInt8) : Cursor := ⟨bytes, 1, 0⟩

def ofString (s : String) : Cursor := start (Text.bytesOf s)

def next (c : Cursor) : Cursor :=
  match c.rest with
  | [] => c
  | b :: rest => if b == 0x0a then ⟨rest, c.line + 1, 0⟩ else ⟨rest, c.line, c.column + 1⟩

def advance : Nat → Cursor → Cursor
  | 0, c => c
  | n + 1, c => advance n c.next

def fault (c : Cursor) (f : Fault) : ReadError := ⟨f, c.line, c.column⟩

def faultAhead (c : Cursor) (f : Fault) : ReadError := c.next.fault f

def isJsonBlank (b : UInt8) : Bool := b == 0x20 || b == 0x0a || b == 0x09 || b == 0x0d

def skipBlanks (c : Cursor) : Cursor := advance (c.rest.takeWhile isJsonBlank).length c

end Cursor

end ApiContracts.Json

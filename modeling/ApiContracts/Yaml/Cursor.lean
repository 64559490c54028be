/-!
# Places in a YAML text

A cursor stands before the next character and counts characters, lines and columns, all from zero. The characters a YAML text may hold are a subset of Unicode; five of them end a line, of which a carriage return with a line feed behind it counts as one.
-/

namespace ApiContracts.Yaml

/-- Why a text is not YAML, or not YAML that can be read into a document tree. -/
inductive Fault where
  | forbiddenCharacter
  | unexpectedCharacter
  | badDirective
  | badAnchor
  | badTag
  | badEscape
  | unclosedQuote
  | badBlockHeader
  | tabInIndentation
  | entryNotAllowed
  | keyNotAllowed
  | valueNotAllowed
  | missingColon
  | unexpectedColon
  | missingNode
  | missingEntry
  | missingKey
  | missingSeparator
  | missingDocumentStart
  | undefinedTag
  | repeatedDirective
  | unsupportedVersion
  | unknownAnchor
  | tooDeep
  | tooManyAliases
  | taggedValue
  | wideInteger
  | notATextTable
  | severalDocuments
  deriving DecidableEq

def Fault.message : Fault → String
  | .forbiddenCharacter => "control characters are not allowed"
  | .unexpectedCharacter => "found character that cannot start any token"
  | .badDirective => "malformed directive"
  | .badAnchor => "did not find expected alphabetic or numeric character"
  | .badTag => "malformed tag"
  | .badEscape => "found unknown escape character"
  | .unclosedQuote => "found unexpected end of stream"
  | .badBlockHeader => "malformed block scalar header"
  | .tabInIndentation => "found a tab character that violates indentation"
  | .entryNotAllowed => "block sequence entries are not allowed in this context"
  | .keyNotAllowed => "mapping keys are not allowed in this context"
  | .valueNotAllowed => "mapping values are not allowed in this context"
  | .missingColon => "could not find expected ':'"
  | .unexpectedColon => "found unexpected ':'"
  | .missingNode => "did not find expected node content"
  | .missingEntry => "did not find expected '-' indicator"
  | .missingKey => "did not find expected key"
  | .missingSeparator => "did not find expected ',' or closing bracket"
  | .missingDocumentStart => "did not find expected <document start>"
  | .undefinedTag => "found undefined tag handle"
  | .repeatedDirective => "found duplicate directive"
  | .unsupportedVersion => "found incompatible YAML document"
  | .unknownAnchor => "unknown anchor"
  | .tooDeep => "recursion limit exceeded"
  | .tooManyAliases => "repetition limit exceeded"
  | .taggedValue => "tagged values are not supported"
  | .wideInteger => "integer out of range"
  | .notATextTable => "expected a map of strings"
  | .severalDocuments => "deserializing from YAML containing more than one document is not supported"

def isSpaceOrTab (c : Char) : Bool := c = ' ' || c = '\t'

def isBreak (c : Char) : Bool := c = '\n' || c = '\r' || c = '\x85' || c = '\u2028' || c = '\u2029'

/-- The characters of names: letters, digits, underscore and hyphen, in ASCII. -/
def isNameChar (c : Char) : Bool := c.isAlphanum || c = '_' || c = '-'

/-- Whether a text may hold the character at all. -/
def isAllowed (c : Char) : Bool :=
  let n := c.toNat
  n == 0x09 || n == 0x0a || n == 0x0d || (0x20 ≤ n && n ≤ 0x7e) || n == 0x85 ||
    (0xa0 ≤ n && n ≤ 0xd7ff) || (0xe000 ≤ n && n ≤ 0xfffd) || 0x10000 ≤ n

structure Cursor where
  rest : List Char
  index : Nat := 0
  line : Nat := 0
  column : Nat := 0

namespace Cursor

def peek (c : Cursor) : Option Char := c.rest.head?

def peekAt (c : Cursor) (n : Nat) : Option Char := c.rest[n]?

def isAt (c : Cursor) (x : Char) : Bool := c.peek == some x

/-- The cursor behind the next character, which stays on its line. -/
def skip (c : Cursor) : Cursor :=
  match c.rest with
  | [] => c
  | _ :: rest => ⟨rest, c.index + 1, c.line, c.column + 1⟩

def skipN : Nat → Cursor → Cursor
  | 0, c => c
  | n + 1, c => skipN n c.skip

/-- The cursor behind a line break, if one is next. -/
def skipLine (c : Cursor) : Cursor :=
  match c.rest with
  | '\r' :: '\n' :: rest => ⟨rest, c.index + 2, c.line + 1, 0⟩
  | x :: rest => if isBreak x then ⟨rest, c.index + 1, c.line + 1, 0⟩ else c
  | [] => c

/-- What a line break at the cursor contributes to a text: a line feed, or itself for the two Unicode separators. -/
def breakText (c : Cursor) : List Char :=
  match c.peek with
  | some x => if x = '\u2028' || x = '\u2029' then [x] else if isBreak x then ['\n'] else []
  | none => []

/-- Whether the character `n` places on is a blank, a line break or the end. -/
def blankAt (c : Cursor) (n : Nat) : Bool :=
  match c.peekAt n with
  | none => true
  | some x => isSpaceOrTab x || isBreak x

def isBlankOrEnd (c : Cursor) : Bool := c.blankAt 0

def atBlank (c : Cursor) : Bool := c.peek.any isSpaceOrTab

def atBreak (c : Cursor) : Bool := c.peek.any isBreak

def atBreakOrEnd (c : Cursor) : Bool := c.peek.all isBreak

/-- The longest run of characters of a class, with the cursor behind it; the class holds no line breaks. -/
def run (p : Char → Bool) (c : Cursor) : List Char × Cursor :=
  let taken := c.rest.takeWhile p
  (taken, skipN taken.length c)

def skipWhile (p : Char → Bool) (c : Cursor) : Cursor := (c.run p).2

/-- Whether the line starts with three of a character and a blank: a document marker. -/
def atMarker (c : Cursor) (x : Char) : Bool :=
  c.column == 0 && c.peekAt 0 == some x && c.peekAt 1 == some x && c.peekAt 2 == some x && c.blankAt 3

def atDocumentMarker (c : Cursor) : Bool := c.atMarker '-' || c.atMarker '.'

end Cursor

end ApiContracts.Yaml

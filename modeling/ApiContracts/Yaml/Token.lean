import ApiContracts.Yaml.Cursor
import ApiContracts.Text.Numeral

/-!
# Tokens of YAML

The pieces that a YAML text is made of, and how each one that has a text of its own is read at a cursor. A reader stops at the first character behind its token. Where lines are folded, a gap keeps what stood between two parts of a scalar until it is known whether another part follows.
-/

namespace ApiContracts.Yaml

open Text

/-- A tag as it is written: the name of a shorthand, which may be empty, and the rest. -/
structure TagText where
  handle : List Char
  suffix : List Char
  deriving DecidableEq

inductive Token where
  | streamEnd
  | versionDirective (major minor : Nat)
  | tagDirective (handle start : List Char)
  | documentStart
  | documentEnd
  | blockSequenceStart
  | blockMappingStart
  | blockEnd
  | flowSequenceStart
  | flowSequenceEnd
  | flowMappingStart
  | flowMappingEnd
  | blockEntry
  | flowEntry
  | key
  | value
  | alias (name : List Char)
  | anchor (name : List Char)
  | tag (t : TagText)
  | scalar (text : List Char) (plain : Bool)
  deriving DecidableEq

namespace Cursor

/-- The cursor at the end of the line, behind blanks and a comment; nothing else may stand there. -/
def restOfLine (c : Cursor) : Except Fault Cursor :=
  let c := c.skipWhile isSpaceOrTab
  let c := if c.isAt '#' then c.skipWhile (!isBreak ·) else c
  if c.atBreakOrEnd then .ok c.skipLine else .error .unexpectedCharacter

end Cursor

/-! ## Scalars over several lines -/

/-- What stands between two parts of a scalar: blanks on one line, or line breaks, the first of which folds. -/
structure Gap where
  broken : Bool := false
  blanks : List Char := []
  firstBreak : List Char := []
  moreBreaks : List Char := []

namespace Gap

/-- What a gap contributes to the scalar. A line feed alone folds to a space, and with further breaks to those. -/
def text (g : Gap) : List Char :=
  if !g.broken then g.blanks
  else if g.firstBreak = ['\n'] then (if g.moreBreaks.isEmpty then [' '] else g.moreBreaks)
  else g.firstBreak ++ g.moreBreaks

/-- The gap up to the next character that is neither a blank nor a break. On later lines no tab may stand before column `indent`. -/
def scan (indent : Int) : Nat → Gap → Cursor → Except Fault (Gap × Cursor)
  | 0, g, c => .ok (g, c)
  | fuel + 1, g, c =>
    if c.atBlank then
      if g.broken && (c.column : Int) < indent && c.isAt '\t' then .error .tabInIndentation
      else if g.broken then scan indent fuel g c.skip
      else scan indent fuel { g with blanks := g.blanks ++ c.peek.toList } c.skip
    else if c.atBreak then
      if g.broken then scan indent fuel { g with moreBreaks := g.moreBreaks ++ c.breakText } c.skipLine
      else scan indent fuel { broken := true, firstBreak := c.breakText } c.skipLine
    else .ok (g, c)

end Gap

/-! ## Plain scalars -/

/-- The characters of a plain scalar up to a blank or to an indicator that ends it. -/
def plainRun (flow : Bool) : Nat → Cursor → Except Fault (List Char × Cursor)
  | 0, c => .ok ([], c)
  | fuel + 1, c =>
    match c.peek with
    | none => .ok ([], c)
    | some x =>
      if c.isBlankOrEnd then .ok ([], c)
      else if flow && x == ':' && (c.peekAt 1).any (· ∈ [',', '?', '[', ']', '\x7b', '\x7d']) then .error .unexpectedColon
      else if x == ':' && c.blankAt 1 then .ok ([], c)
      else if flow && x ∈ [',', '[', ']', '\x7b', '\x7d'] then .ok ([], c)
      else (plainRun flow fuel c.skip).map fun (more, behind) => (x :: more, behind)

/-- A plain scalar from behind the part `text` and a gap, and whether it ended behind a line break. -/
def plainFrom (flow : Bool) (indent : Int) : Nat → List Char → Gap → Cursor → Except Fault ((List Char × Bool) × Cursor)
  | 0, text, gap, c => .ok ((text, gap.broken), c)
  | fuel + 1, text, gap, c => do
    if c.atDocumentMarker || c.isAt '#' then return ((text, gap.broken), c)
    let (part, c) ← plainRun flow c.rest.length c
    let ended := part.isEmpty
    let gap' : Gap := if ended then gap else {}
    let text := if ended then text else text ++ gap.text ++ part
    if !(c.atBlank || c.atBreak) then return ((text, gap'.broken), c)
    let (gap', c) ← Gap.scan indent c.rest.length gap' c
    if !flow && (c.column : Int) < indent then return ((text, gap'.broken), c)
    plainFrom flow indent fuel text gap' c

/-- A plain scalar, whose later lines stand at column `indent` or further in unless it is inside brackets. -/
def scanPlain (flow : Bool) (indent : Int) (c : Cursor) : Except Fault ((List Char × Bool) × Cursor) :=
  plainFrom flow indent (c.rest.length + 1) [] {} c

/-! ## Quoted scalars -/

/-- The character an escape letter stands for, where it stands for one. -/
def escapeLetter? : Char → Option Char
  | '0' => some '\x00'
  | 'a' => some '\x07'
  | 'b' => some '\x08'
  | 't' => some '\t'
  | '\t' => some '\t'
  | 'n' => some '\n'
  | 'v' => some '\x0b'
  | 'f' => some '\x0c'
  | 'r' => some '\r'
  | 'e' => some '\x1b'
  | ' ' => some ' '
  | '"' => some '"'
  | '/' => some '/'
  | '\\' => some '\\'
  | 'N' => some '\x85'
  | '_' => some '\xa0'
  | 'L' => some '\u2028'
  | 'P' => some '\u2029'
  | _ => none

/-- The number of hexadecimal digits that an escape letter announces. -/
def escapeWidth? : Char → Option Nat
  | 'x' => some 2
  | 'u' => some 4
  | 'U' => some 8
  | _ => none

/-- An escape, at its backslash. -/
def scanEscape (c : Cursor) : Except Fault (Char × Cursor) :=
  match c.peekAt 1 with
  | none => .error .badEscape
  | some letter =>
    let behind := c.skipN 2
    match escapeLetter? letter, escapeWidth? letter with
    | some x, _ => .ok (x, behind)
    | none, some width =>
      let digits := behind.rest.take width
      match natural 16 digits with
      | some n =>
        if digits.length = width ∧ n.isValidChar then .ok (Char.ofNat n, behind.skipN width) else .error .badEscape
      | none => .error .badEscape
    | none, none => .error .badEscape

/-- The characters of a quoted scalar up to a blank, the closing quote or an escaped line break, and whether it was the last. -/
def quotedRun (single : Bool) : Nat → Cursor → Except Fault ((List Char × Bool) × Cursor)
  | 0, c => .ok (([], false), c)
  | fuel + 1, c =>
    match c.peek with
    | none => .ok (([], false), c)
    | some x =>
      let step (ch : Char) (behind : Cursor) : Except Fault ((List Char × Bool) × Cursor) :=
        (quotedRun single fuel behind).map fun ((more, folded), behind) => ((ch :: more, folded), behind)
      if c.isBlankOrEnd then .ok (([], false), c)
      else if single && x == '\'' then
        if c.peekAt 1 == some '\'' then step '\'' (c.skipN 2) else .ok (([], false), c)
      else if !single && x == '"' then .ok (([], false), c)
      else if !single && x == '\\' then
        if (c.peekAt 1).any isBreak then .ok (([], true), c.skip.skipLine)
        else
          match scanEscape c with
          | .ok (ch, behind) => step ch behind
          | .error e => .error e
      else step x c.skip

/-- A quoted scalar from behind the part `text`, to behind its closing quote. -/
def quotedFrom (single : Bool) : Nat → List Char → Cursor → Except Fault (List Char × Cursor)
  | 0, _, _ => .error .unclosedQuote
  | fuel + 1, text, c => do
    if c.atDocumentMarker then throw .unclosedQuote
    if c.rest.isEmpty then throw .unclosedQuote
    let ((part, folded), c) ← quotedRun single c.rest.length c
    let text := text ++ part
    if c.isAt (if single then '\'' else '"') then return (text, c.skip)
    let (gap, c) ← Gap.scan 0 c.rest.length { broken := folded } c
    quotedFrom single fuel (text ++ gap.text) c

/-- A quoted scalar, at its opening quote. -/
def scanQuoted (single : Bool) (c : Cursor) : Except Fault (List Char × Cursor) := quotedFrom single (c.rest.length + 1) [] c.skip

/-! ## Block scalars -/

/-- What happens to the line breaks at the end of a block scalar. -/
inductive Chomping where
  | strip
  | clip
  | keep
  deriving DecidableEq

/-- The sign of a chomping, if one is next. -/
def scanChomping (c : Cursor) : Option (Chomping × Cursor) :=
  if c.isAt '+' then some (.keep, c.skip) else if c.isAt '-' then some (.strip, c.skip) else none

/-- The indentation digit, if one is next; it is not zero. -/
def scanIncrement (c : Cursor) : Except Fault (Option Nat × Cursor) :=
  match c.peek with
  | some x =>
    if x == '0' then .error .badBlockHeader
    else if x.isDigit then .ok (some (x.toNat - 48), c.skip)
    else .ok (none, c)
  | none => .ok (none, c)

/-- The chomping and the indentation digit, in either order. -/
def scanBlockHeader (c : Cursor) : Except Fault ((Chomping × Option Nat) × Cursor) := do
  match scanChomping c with
  | some (chomping, c) =>
    let (increment, c) ← scanIncrement c
    return ((chomping, increment), c)
  | none =>
    let (increment, c) ← scanIncrement c
    match increment, scanChomping c with
    | some _, some (chomping, c) => return ((chomping, increment), c)
    | _, _ => return ((.clip, increment), c)

/-- Blank lines and the indentation of the line behind them: the breaks, and the furthest column reached. An unknown indentation lets every space pass. -/
def blockBreaks (indent : Option Nat) : Nat → List Char → Nat → Cursor → Except Fault ((List Char × Nat) × Cursor)
  | 0, breaks, furthest, c => .ok ((breaks, furthest), c)
  | fuel + 1, breaks, furthest, c =>
    let spaces := (c.run (· == ' ')).1.length
    let c := c.skipN (match indent with
      | some n => min spaces (n - c.column)
      | none => spaces)
    let furthest := max furthest c.column
    if c.isAt '\t' && indent.all (c.column < ·) then .error .tabInIndentation
    else if c.atBreak then blockBreaks indent fuel (breaks ++ c.breakText) furthest c.skipLine
    else .ok ((breaks, furthest), c)

/-- The lines of a block scalar: the text so far, the break of the last line, the breaks behind it, and whether the last line started with a blank. -/
def blockLines (literal : Bool) (indent : Nat) :
    Nat → List Char → List Char → List Char → Bool → Cursor → Except Fault ((List Char × List Char × List Char) × Cursor)
  | 0, text, lastBreak, breaks, _, c => .ok ((text, lastBreak, breaks), c)
  | fuel + 1, text, lastBreak, breaks, leading, c => do
    if c.column != indent || c.rest.isEmpty then return ((text, lastBreak, breaks), c)
    let blank := c.atBlank
    let joint :=
      if !literal && lastBreak == ['\n'] && !leading && !blank then (if breaks.isEmpty then [' '] else []) else lastBreak
    let (line, c) := c.run (!isBreak ·)
    let lastBreak := c.breakText
    let ((nextBreaks, _), c) ← blockBreaks (some indent) (c.rest.length + 1) [] 0 c.skipLine
    blockLines literal indent fuel (text ++ joint ++ breaks ++ line) lastBreak nextBreaks blank c

/-- A block scalar inside a block indented by `parent`, at its indicator. -/
def scanBlock (literal : Bool) (parent : Int) (c : Cursor) : Except Fault (List Char × Cursor) := do
  let ((chomping, increment), c) ← scanBlockHeader c.skip
  let c ← c.restOfLine
  let given := increment.map fun n => (if 0 ≤ parent then parent.toNat + n else n)
  let ((breaks, furthest), c) ← blockBreaks given (c.rest.length + 1) [] 0 c
  let indent := given.getD (max furthest (max (parent + 1).toNat 1))
  let ((text, lastBreak, breaks), c) ← blockLines literal indent (c.rest.length + 1) [] [] breaks false c
  match chomping with
  | .strip => return (text, c)
  | .clip => return (text ++ lastBreak, c)
  | .keep => return (text ++ lastBreak ++ breaks, c)

/-! ## Anchors and tags -/

/-- The name of an anchor or an alias, at its indicator. -/
def scanName (c : Cursor) : Except Fault (List Char × Cursor) :=
  let (name, c) := c.skip.run isNameChar
  let ends := c.isBlankOrEnd || c.peek.any (· ∈ ['?', ':', ',', ']', '\x7d', '%', '@', '`'])
  if name.isEmpty || !ends then .error .badAnchor else .ok (name, c)

/-- The length of the character that a first byte starts. -/
def octetWidth (n : Nat) : Nat :=
  if n < 0x80 then 1 else if 0xc0 ≤ n ∧ n < 0xe0 then 2 else if 0xe0 ≤ n ∧ n < 0xf0 then 3
  else if 0xf0 ≤ n ∧ n < 0xf8 then 4 else 0

def scanOctet (c : Cursor) : Except Fault (Nat × Cursor) :=
  match c.rest with
  | '%' :: h :: l :: _ =>
    match natural 16 [h, l] with
    | some n => .ok (n, c.skipN 3)
    | none => .error .badTag
  | _ => .error .badTag

/-- The bytes behind the first one of an escaped character. -/
def scanTailOctets : Nat → Cursor → Except Fault (List Char × Cursor)
  | 0, c => .ok ([], c)
  | n + 1, c => do
    let (octet, c) ← scanOctet c
    if octet < 0x80 ∨ 0xc0 ≤ octet then throw .badTag
    let (more, c) ← scanTailOctets n c
    return (Char.ofNat octet :: more, c)

/-- An escaped character, one character for each of its bytes. -/
def scanOctets (c : Cursor) : Except Fault (List Char × Cursor) := do
  let (octet, c) ← scanOctet c
  let width := octetWidth octet
  if width = 0 then throw .badTag
  let (more, c) ← scanTailOctets (width - 1) c
  return (Char.ofNat octet :: more, c)

/-- The characters of a tag; a comma and square brackets only where `verbatim`. -/
def isTagChar (verbatim : Bool) (x : Char) : Bool :=
  isNameChar x || x ∈ [';', '/', '?', ':', '@', '&', '=', '+', '$', '.', '%', '!', '~', '*', '\'', '(', ')'] ||
    (verbatim && x ∈ [',', '[', ']'])

def tagChars (verbatim : Bool) : Nat → Cursor → Except Fault (List Char × Cursor)
  | 0, c => .ok ([], c)
  | fuel + 1, c =>
    match c.peek with
    | none => .ok ([], c)
    | some x =>
      if !isTagChar verbatim x then .ok ([], c)
      else do
        let (part, c) ← if x == '%' then scanOctets c else .ok ([x], c.skip)
        let (more, c) ← tagChars verbatim fuel c
        return (part ++ more, c)

/-- A tag's text that continues `start`; it may not be empty. -/
def scanTagText (verbatim : Bool) (start : List Char) (c : Cursor) : Except Fault (List Char × Cursor) := do
  let (text, c') ← tagChars verbatim c.rest.length c
  if start.isEmpty && text.isEmpty then throw .badTag
  return (start.drop 1 ++ text, c')

/-- An exclamation mark, a name and, if there is one, a closing exclamation mark. -/
def scanHandle (c : Cursor) : Except Fault (List Char × Cursor) :=
  if !c.isAt '!' then .error .badTag
  else
    let (name, c) := c.skip.run isNameChar
    if c.isAt '!' then .ok ('!' :: name ++ ['!'], c.skip) else .ok ('!' :: name, c)

/-- A tag, at its exclamation mark. -/
def scanTag (flow : Bool) (c : Cursor) : Except Fault (TagText × Cursor) := do
  let (tag, c) ←
    if c.peekAt 1 == some '<' then do
      let (suffix, c) ← scanTagText true [] (c.skipN 2)
      if !c.isAt '>' then throw .badTag
      pure ((⟨[], suffix⟩ : TagText), c.skip)
    else do
      let (handle, c) ← scanHandle c
      if 1 < handle.length ∧ handle.getLast? = some '!' then
        let (suffix, c) ← scanTagText false [] c
        pure (⟨handle, suffix⟩, c)
      else
        let (suffix, c) ← scanTagText false handle c
        pure (if suffix.isEmpty then ⟨[], ['!']⟩ else ⟨['!'], suffix⟩, c)
  if c.isBlankOrEnd || (flow && c.isAt ',') then return (tag, c) else throw .badTag

/-! ## Directives -/

/-- A version number of at most nine digits. -/
def scanVersionNumber (c : Cursor) : Except Fault (Nat × Cursor) :=
  let (digits, c) := c.run Char.isDigit
  if 9 < digits.length then .error .badDirective
  else
    match natural 10 digits with
    | some n => .ok (n, c)
    | none => .error .badDirective

/-- A directive, at its percent sign, to behind the end of its line. -/
def scanDirective (c : Cursor) : Except Fault (Token × Cursor) := do
  let (name, c) := c.skip.run isNameChar
  if name.isEmpty || !c.isBlankOrEnd then throw .badDirective
  let c := c.skipWhile isSpaceOrTab
  let (token, c) ←
    if name == "YAML".toList then do
      let (major, c) ← scanVersionNumber c
      if !c.isAt '.' then throw .badDirective
      let (minor, c) ← scanVersionNumber c.skip
      pure (Token.versionDirective major minor, c)
    else if name == "TAG".toList then do
      let (handle, c) ← scanHandle c
      if handle.getLast? ≠ some '!' then throw .badDirective
      if !c.atBlank then throw .badDirective
      let (start, c) ← scanTagText true [] (c.skipWhile isSpaceOrTab)
      if !c.isBlankOrEnd then throw .badDirective
      pure (Token.tagDirective handle start, c)
    else throw .badDirective
  let c ← c.restOfLine
  return (token, c)

end ApiContracts.Yaml

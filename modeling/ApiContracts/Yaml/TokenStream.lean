import ApiContracts.Yaml.Token

/-!
# The stream of tokens

Indentation and mapping keys make tokens that no character stands for. A token may turn out to be a key only when a colon follows it on its line, so the head of the queue is given out when it can no longer be one. Blocks open where a line is indented further and close where it is indented less.
-/

namespace ApiContracts.Yaml

/-- A place where a key may have started. -/
structure PossibleKey where
  /-- The number of the token that the key would start with. -/
  token : Nat
  /-- Whether the line is a mistake unless it is a key. -/
  required : Bool
  index : Nat
  line : Nat
  column : Nat

structure TokenStream where
  cursor : Cursor
  queue : List Token := []
  /-- The number of tokens given out. -/
  taken : Nat := 0
  /-- The column of the innermost block, -1 outside any. -/
  indent : Int := -1
  indents : List Int := []
  /-- The possible key of the block and of each open bracket, the innermost first. -/
  blockKey : Option PossibleKey := none
  flowKeys : List (Option PossibleKey) := []
  /-- Whether a key may start here. -/
  keyAllowed : Bool := true

namespace TokenStream

abbrev Step := Except Fault TokenStream

def ofText (cs : List Char) : TokenStream :=
  { cursor := { rest := match cs with
      | '\ufeff' :: rest => rest
      | cs => cs } }

def inFlow (s : TokenStream) : Bool := !s.flowKeys.isEmpty

/-- The possible key of the innermost block or bracket. -/
def currentKey (s : TokenStream) : Option PossibleKey :=
  match s.flowKeys with
  | k :: _ => k
  | [] => s.blockKey

def setKey (s : TokenStream) (k : Option PossibleKey) : TokenStream :=
  match s.flowKeys with
  | _ :: rest => { s with flowKeys := k :: rest }
  | [] => { s with blockKey := k }

def enqueue (s : TokenStream) (t : Token) : TokenStream := { s with queue := s.queue ++ [t] }

def insertAt (s : TokenStream) (number : Nat) (t : Token) : TokenStream :=
  let place := number - s.taken
  { s with queue := s.queue.take place ++ [t] ++ s.queue.drop place }

/-- A possible key is on the line of the cursor and not too far behind it. -/
def isFresh (s : TokenStream) (k : PossibleKey) : Bool := s.cursor.line ≤ k.line && s.cursor.index ≤ k.index + 1024

/-- The key if it is still possible; one that had to be a key may not lapse. -/
def refresh (s : TokenStream) : Option PossibleKey → Except Fault (Option PossibleKey)
  | none => .ok none
  | some k => if s.isFresh k then .ok (some k) else if k.required then .error .missingColon else .ok none

def lapse (s : TokenStream) : Step := do
  let blockKey ← s.refresh s.blockKey
  let flowKeys ← s.flowKeys.mapM s.refresh
  return { s with blockKey, flowKeys }

def dropKey (s : TokenStream) : Step :=
  match s.currentKey with
  | some k => if k.required then .error .missingColon else .ok (s.setKey none)
  | none => .ok s

/-- Notes that a key may start at the cursor. -/
def saveKey (s : TokenStream) : Step :=
  if s.keyAllowed then do
    let c := s.cursor
    let required := !s.inFlow && s.indent == c.column
    let s ← s.dropKey
    return s.setKey (some ⟨s.taken + s.queue.length, required, c.index, c.line, c.column⟩)
  else .ok s

/-- Opens a block at a column further in; its token goes before the token of a number, or last. -/
def roll (s : TokenStream) (column : Nat) (number : Option Nat) (t : Token) : TokenStream :=
  if s.inFlow || (column : Int) ≤ s.indent then s
  else
    let s := { s with indents := s.indent :: s.indents, indent := column }
    match number with
    | some n => s.insertAt n t
    | none => s.enqueue t

/-- The blocks left when those indented further than a column are closed: their number, the indentation and what remains. -/
def closing (column indent : Int) : List Int → Nat × Int × List Int
  | [] => (0, indent, [])
  | outer :: rest =>
    if column < indent then
      let (n, i, is) := closing column outer rest
      (n + 1, i, is)
    else (0, indent, outer :: rest)

def unroll (s : TokenStream) (column : Int) : TokenStream :=
  if s.inFlow then s
  else
    let (n, indent, indents) := closing column s.indent s.indents
    { s with queue := s.queue ++ List.replicate n .blockEnd, indent, indents }

/-- The cursor at the next token. Tabs count as blanks only where no key may start. -/
def skipToToken (s : TokenStream) : Nat → TokenStream
  | 0 => s
  | fuel + 1 =>
    let c := s.cursor
    let c := if c.index == 0 && c.isAt '\ufeff' then c.skip else c
    let c := c.skipWhile fun x => x == ' ' || ((s.inFlow || !s.keyAllowed) && x == '\t')
    let c := if c.isAt '#' then c.skipWhile (!isBreak ·) else c
    if c.atBreak then
      skipToToken { s with cursor := c.skipLine, keyAllowed := s.keyAllowed || !s.inFlow } fuel
    else { s with cursor := c }

def single (s : TokenStream) (t : Token) : TokenStream := { s with cursor := s.cursor.skip }.enqueue t

def fetchStreamEnd (s : TokenStream) : Step := do
  let s := s.unroll (-1)
  let s ← s.dropKey
  return { s with keyAllowed := false }.enqueue .streamEnd

def fetchDirective (s : TokenStream) : Step := do
  let s := s.unroll (-1)
  let s ← s.dropKey
  let (t, c) ← scanDirective s.cursor
  return { s with keyAllowed := false, cursor := c }.enqueue t

def fetchMarker (s : TokenStream) (t : Token) : Step := do
  let s := s.unroll (-1)
  let s ← s.dropKey
  return { s with keyAllowed := false, cursor := s.cursor.skipN 3 }.enqueue t

def fetchFlowStart (s : TokenStream) (t : Token) : Step := do
  let s ← s.saveKey
  return { s with flowKeys := none :: s.flowKeys, keyAllowed := true }.single t

def fetchFlowEnd (s : TokenStream) (t : Token) : Step := do
  let s ← s.dropKey
  return { s with flowKeys := s.flowKeys.drop 1, keyAllowed := false }.single t

def fetchFlowEntry (s : TokenStream) : Step := do
  let s ← s.dropKey
  return { s with keyAllowed := true }.single .flowEntry

def fetchBlockEntry (s : TokenStream) : Step := do
  if !s.inFlow && !s.keyAllowed then throw .entryNotAllowed
  let s ← (s.roll s.cursor.column none .blockSequenceStart).dropKey
  return { s with keyAllowed := true }.single .blockEntry

def fetchKey (s : TokenStream) : Step := do
  if !s.inFlow && !s.keyAllowed then throw .keyNotAllowed
  let s ← (s.roll s.cursor.column none .blockMappingStart).dropKey
  return { s with keyAllowed := !s.inFlow }.single .key

/-- A colon makes a key of the token that may be one. -/
def fetchValue (s : TokenStream) : Step :=
  match s.currentKey with
  | some k =>
    let s := (s.insertAt k.token .key).roll k.column (some k.token) .blockMappingStart
    .ok ({ s.setKey none with keyAllowed := false }.single .value)
  | none => do
    if !s.inFlow && !s.keyAllowed then throw .valueNotAllowed
    let s := s.roll s.cursor.column none .blockMappingStart
    return { s with keyAllowed := !s.inFlow }.single .value

/-- A token that may be a key, read by `scan`. -/
def fetchContent (s : TokenStream) (scan : Cursor → Except Fault (Token × Cursor)) : Step := do
  let s ← s.saveKey
  let (t, c) ← scan s.cursor
  return { s with keyAllowed := false, cursor := c }.enqueue t

def fetchBlockScalar (s : TokenStream) (literal : Bool) : Step := do
  let s ← s.dropKey
  let (text, c) ← scanBlock literal s.indent s.cursor
  return { s with keyAllowed := true, cursor := c }.enqueue (.scalar text false)

/-- A plain scalar; behind a line break a key may start again. -/
def fetchPlain (s : TokenStream) : Step := do
  let s ← s.saveKey
  let ((text, broken), c) ← scanPlain s.inFlow (s.indent + 1) s.cursor
  return { s with keyAllowed := broken, cursor := c }.enqueue (.scalar text true)

/-- The characters that start no plain scalar, unless a text character follows some of them. -/
def isIndicator (x : Char) : Bool :=
  x ∈ ['-', '?', ':', ',', '[', ']', '\x7b', '\x7d', '#', '&', '*', '!', '|', '>', '\'', '"', '%', '@', '`']

def fetch (s : TokenStream) : Step := do
  let s := s.skipToToken (s.cursor.rest.length + 1)
  let s ← s.lapse
  let s := s.unroll s.cursor.column
  let c := s.cursor
  match c.peek with
  | none => s.fetchStreamEnd
  | some x =>
    let blankNext := c.blankAt 1
    if c.column == 0 && x == '%' then s.fetchDirective
    else if c.atMarker '-' then s.fetchMarker .documentStart
    else if c.atMarker '.' then s.fetchMarker .documentEnd
    else if x == '[' then s.fetchFlowStart .flowSequenceStart
    else if x == '\x7b' then s.fetchFlowStart .flowMappingStart
    else if x == ']' then s.fetchFlowEnd .flowSequenceEnd
    else if x == '\x7d' then s.fetchFlowEnd .flowMappingEnd
    else if x == ',' then s.fetchFlowEntry
    else if x == '-' && blankNext then s.fetchBlockEntry
    else if x == '?' && (s.inFlow || blankNext) then s.fetchKey
    else if x == ':' && (s.inFlow || blankNext) then s.fetchValue
    else if x == '*' then s.fetchContent fun c => (scanName c).map fun (n, c) => (.alias n, c)
    else if x == '&' then s.fetchContent fun c => (scanName c).map fun (n, c) => (.anchor n, c)
    else if x == '!' then s.fetchContent fun c => (scanTag s.inFlow c).map fun (t, c) => (.tag t, c)
    else if x == '|' && !s.inFlow then s.fetchBlockScalar true
    else if x == '>' && !s.inFlow then s.fetchBlockScalar false
    else if x == '\'' then s.fetchContent fun c => (scanQuoted true c).map fun (t, c) => (.scalar t false, c)
    else if x == '"' then s.fetchContent fun c => (scanQuoted false c).map fun (t, c) => (.scalar t false, c)
    else if (!c.isBlankOrEnd && !isIndicator x) || (x == '-' && !(c.peekAt 1).any isSpaceOrTab) ||
        (!s.inFlow && (x == '?' || x == ':') && !blankNext) then s.fetchPlain
    else throw .unexpectedCharacter

/-- Whether the head of the queue is still unknown, or may turn out to be a key. -/
def needsMore (s : TokenStream) : Bool :=
  s.queue.isEmpty || (s.blockKey :: s.flowKeys).any fun k => k.any (·.token == s.taken)

def fill (s : TokenStream) : Nat → Step
  | 0 => .ok s
  | fuel + 1 => do
    let s ← if s.queue.isEmpty then pure s else s.lapse
    if s.needsMore then (← s.fetch).fill fuel else return s

/-- The next token, which stays in the queue. -/
def peek (s : TokenStream) : Except Fault (Token × TokenStream) := do
  let s ← s.fill (s.cursor.rest.length + 2)
  match s.queue with
  | t :: _ => return (t, s)
  | [] => return (.streamEnd, s)

def skip (s : TokenStream) : TokenStream := { s with queue := s.queue.drop 1, taken := s.taken + 1 }

end TokenStream

end ApiContracts.Yaml

import ApiContracts.Yaml.TokenStream

/-!
# Events

The grammar of documents over the tokens: a flat account of scalars, and of sequences and mappings with their starts and ends. The grammar is a machine whose state says what may come next, with the states to return to kept on a stack, so events are given out as soon as their tokens are certain.
-/

namespace ApiContracts.Yaml

inductive Event where
  | streamEnd
  | documentStart
  | documentEnd
  | alias (name : List Char)
  | scalar (anchor tag : Option (List Char)) (text : List Char) (plain : Bool)
  | sequenceStart (anchor tag : Option (List Char))
  | sequenceEnd
  | mappingStart (anchor tag : Option (List Char))
  | mappingEnd

/-- What may come next. `first` states stand before an opening token that has not been taken. -/
inductive Expectation where
  | document (implicit : Bool)
  | content
  | rest
  | blockNode
  | sequenceEntry (first : Bool)
  | indentlessEntry
  | mappingKey (first : Bool)
  | mappingValue
  | flowEntry (first : Bool)
  | pairKey
  | pairValue
  | pairEnd
  | flowKey (first : Bool)
  | flowValue (empty : Bool)
  | nothing

structure EventStream where
  tokens : TokenStream
  expects : Expectation := .document true
  returns : List Expectation := []
  /-- The meanings of tag handles in this document. -/
  handles : List (List Char × List Char) := []

namespace EventStream

abbrev Step := Except Fault (Event × EventStream)

def peek (s : EventStream) : Except Fault (Token × EventStream) := do
  let (t, tokens) ← s.tokens.peek
  return (t, { s with tokens })

def skip (s : EventStream) : EventStream := { s with tokens := s.tokens.skip }

def peekNext (s : EventStream) : Except Fault (Token × EventStream) := s.skip.peek

/-- Goes back to the innermost expectation that was put off. -/
def pop (s : EventStream) : EventStream :=
  match s.returns with
  | e :: rest => { s with expects := e, returns := rest }
  | [] => { s with expects := .nothing }

def push (s : EventStream) (e : Expectation) : EventStream := { s with returns := e :: s.returns }

def goto (s : EventStream) (e : Expectation) : EventStream := { s with expects := e }

def emptyScalar : Event := .scalar none none [] true

def defaultHandles : List (List Char × List Char) :=
  [(['!'], ['!']), (['!', '!'], "tag:yaml.org,2002:".toList)]

/-- The directives before a document: whether a version was given, and the tag handles. -/
def directives : Nat → Bool → List (List Char × List Char) → EventStream →
    Except Fault (List (List Char × List Char) × EventStream)
  | 0, _, handles, s => .ok (handles, s)
  | fuel + 1, versioned, handles, s => do
    let (t, s) ← s.peek
    match t with
    | .versionDirective major minor =>
      if versioned then throw .repeatedDirective
      if major ≠ 1 ∨ (minor ≠ 1 ∧ minor ≠ 2) then throw .unsupportedVersion
      directives fuel true handles s.skip
    | .tagDirective handle start =>
      if (handles.lookup handle).isSome then throw .repeatedDirective
      directives fuel versioned (handles ++ [(handle, start)]) s.skip
    | _ => return (handles, s)

def tagOf (s : EventStream) (t : TagText) : Except Fault (List Char) :=
  if t.handle.isEmpty then .ok t.suffix
  else
    match s.handles.lookup t.handle with
    | some start => .ok (start ++ t.suffix)
    | none => .error .undefinedTag

/-- The anchor and the tag before a node, in either order. -/
def properties (s : EventStream) : Except Fault ((Option (List Char) × Option TagText) × EventStream) := do
  let (t, s) ← s.peek
  match t with
  | .anchor name =>
    let (t, s) ← s.peekNext
    match t with
    | .tag tag => return ((some name, some tag), (← s.peekNext).2)
    | _ => return ((some name, none), s)
  | .tag tag =>
    let (t, s) ← s.peekNext
    match t with
    | .anchor name => return ((some name, some tag), (← s.peekNext).2)
    | _ => return ((none, some tag), s)
  | _ => return ((none, none), s)

/-- A node. A block may start only where `block`, and a sequence without indentation only where `indentless`. -/
def node (s : EventStream) (block indentless : Bool) : Step := do
  let (t, s) ← s.peek
  match t with
  | .alias name => return (.alias name, s.pop.skip)
  | _ =>
    let ((anchor, written), s) ← s.properties
    let tag ← match written with
      | some w => (s.tagOf w).map some
      | none => pure none
    let (t, s) ← s.peek
    match t with
    | .blockEntry =>
      if indentless then return (.sequenceStart anchor tag, s.goto .indentlessEntry)
    | .scalar text plain =>
      if tag = some ['!'] then return (.scalar anchor none text plain, s.pop.skip)
      return (.scalar anchor tag text plain, s.pop.skip)
    | .flowSequenceStart => return (.sequenceStart anchor tag, s.goto (.flowEntry true))
    | .flowMappingStart => return (.mappingStart anchor tag, s.goto (.flowKey true))
    | .blockSequenceStart => if block then return (.sequenceStart anchor tag, s.goto (.sequenceEntry true))
    | .blockMappingStart => if block then return (.mappingStart anchor tag, s.goto (.mappingKey true))
    | _ => pure ()
    if anchor.isSome || tag.isSome then return (.scalar anchor tag [] true, s.pop)
    throw .missingNode

/-- A node behind a token, or an empty scalar where the token behind it is one of `ends`. -/
def nodeUnless (s : EventStream) (ends : Token → Bool) (next : Expectation) (block indentless : Bool) : Step := do
  let (t, s) ← s.peekNext
  if ends t then return (emptyScalar, s.goto next) else (s.push next).node block indentless

def isEntryEnd : Token → Bool
  | .blockEntry | .blockEnd => true
  | _ => false

def isMappingEnd : Token → Bool
  | .key | .value | .blockEnd => true
  | _ => false

def isIndentlessEnd (t : Token) : Bool := isMappingEnd t || isEntryEnd t

def isFlowEntryEnd : Token → Bool
  | .flowEntry | .flowSequenceEnd => true
  | _ => false

def isFlowValueEnd : Token → Bool
  | .flowEntry | .flowMappingEnd => true
  | _ => false

def isFlowKeyEnd : Token → Bool
  | .value | .flowEntry | .flowMappingEnd => true
  | _ => false

def skipDocumentEnds : Nat → EventStream → Except Fault EventStream
  | 0, s => .ok s
  | fuel + 1, s => do
    let (t, s) ← s.peek
    match t with
    | .documentEnd => skipDocumentEnds fuel s.skip
    | _ => return s

def size (s : EventStream) : Nat := s.tokens.cursor.rest.length + s.tokens.queue.length + 1

/-- The start of a document, or the end of the stream. Only the first document may start without a marker. -/
def document (s : EventStream) (implicit : Bool) : Step := do
  let s ← if implicit then pure s else s.skipDocumentEnds s.size
  let (t, s) ← s.peek
  let explicit : Step := do
    let (handles, s) ← directives s.size false [] s
    let handles := handles ++ defaultHandles
    let (t, s) ← s.peek
    match t with
    | .documentStart => return (.documentStart, ({ s with handles }.push .rest).goto .content |>.skip)
    | _ => throw .missingDocumentStart
  match t with
  | .streamEnd => return (.streamEnd, (s.goto .nothing).skip)
  | .versionDirective .. | .tagDirective .. | .documentStart => explicit
  | _ =>
    if implicit then return (.documentStart, ({ s with handles := defaultHandles }.push .rest).goto .blockNode)
    else explicit

/-- The entry of a sequence in brackets, `first` behind the opening one. -/
def flowEntry (s : EventStream) (first : Bool) : Step := do
  let (t, s) ← (if first then s.skip else s).peek
  match t with
  | .flowSequenceEnd => return (.sequenceEnd, s.pop.skip)
  | _ =>
    let (t, s) ←
      if first then pure (t, s)
      else match t with
        | .flowEntry => s.peekNext
        | _ => throw .missingSeparator
    match t with
    | .key => return (.mappingStart none none, (s.goto .pairKey).skip)
    | .flowSequenceEnd => return (.sequenceEnd, s.pop.skip)
    | _ => (s.push (.flowEntry false)).node false false

/-- The key of a mapping in braces, `first` behind the opening one. -/
def flowKey (s : EventStream) (first : Bool) : Step := do
  let (t, s) ← (if first then s.skip else s).peek
  match t with
  | .flowMappingEnd => return (.mappingEnd, s.pop.skip)
  | _ =>
    let (t, s) ←
      if first then pure (t, s)
      else match t with
        | .flowEntry => s.peekNext
        | _ => throw .missingSeparator
    match t with
    | .key => s.nodeUnless isFlowKeyEnd (.flowValue false) false false
    | .flowMappingEnd => return (.mappingEnd, s.pop.skip)
    | _ => (s.push (.flowValue true)).node false false

def next (s : EventStream) : Step :=
  match s.expects with
  | .nothing => .ok (.streamEnd, s)
  | .document implicit => s.document implicit
  | .content => do
    let (t, s) ← s.peek
    match t with
    | .versionDirective .. | .tagDirective .. | .documentStart | .documentEnd | .streamEnd =>
      return (emptyScalar, s.pop)
    | _ => s.node true false
  | .rest => do
    let (t, s) ← s.peek
    let s := match t with
      | .documentEnd => s.skip
      | _ => s
    return (.documentEnd, { s with handles := [] }.goto (.document false))
  | .blockNode => s.node true false
  | .sequenceEntry first => do
    let (t, s) ← (if first then s.skip else s).peek
    match t with
    | .blockEntry => s.nodeUnless isEntryEnd (.sequenceEntry false) true false
    | .blockEnd => return (.sequenceEnd, s.pop.skip)
    | _ => throw .missingEntry
  | .indentlessEntry => do
    let (t, s) ← s.peek
    match t with
    | .blockEntry => s.nodeUnless isIndentlessEnd .indentlessEntry true false
    | _ => return (.sequenceEnd, s.pop)
  | .mappingKey first => do
    let (t, s) ← (if first then s.skip else s).peek
    match t with
    | .key => s.nodeUnless isMappingEnd .mappingValue true true
    | .blockEnd => return (.mappingEnd, s.pop.skip)
    | _ => throw .missingKey
  | .mappingValue => do
    let (t, s) ← s.peek
    match t with
    | .value => s.nodeUnless isMappingEnd (.mappingKey false) true true
    | _ => return (emptyScalar, s.goto (.mappingKey false))
  | .flowEntry first => s.flowEntry first
  | .pairKey => do
    let (t, s) ← s.peek
    match t with
    | .value | .flowEntry | .flowSequenceEnd => return (emptyScalar, s.skip.goto .pairValue)
    | _ => (s.push .pairValue).node false false
  | .pairValue => do
    let (t, s) ← s.peek
    match t with
    | .value => s.nodeUnless isFlowEntryEnd .pairEnd false false
    | _ => return (emptyScalar, s.goto .pairEnd)
  | .pairEnd => .ok (.mappingEnd, s.goto (.flowEntry false))
  | .flowKey first => s.flowKey first
  | .flowValue empty => do
    let (t, s) ← s.peek
    if empty then return (emptyScalar, s.goto (.flowKey false))
    match t with
    | .value => s.nodeUnless isFlowValueEnd (.flowKey false) false false
    | _ => return (emptyScalar, s.goto (.flowKey false))

end EventStream

end ApiContracts.Yaml

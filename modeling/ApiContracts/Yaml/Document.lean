import ApiContracts.Yaml.Event
import ApiContracts.Yaml.Scalar
import ApiContracts.Table

/-!
# Documents

The first document of a text. Its events are gathered up to its end or to a fault; aliases are tied to the latest anchor of their name and read as that node again. `tree` builds the nodes, which may be nested a hundred and twenty-eight deep and may repeat at most a hundred times as many aliases as there are events; `Tree.node?` gives the scalars their meaning, and `textTable` takes them as they are written.

A fault behind the last event of the document counts only after the document itself has been read, and so does a second document.
-/

namespace ApiContracts.Yaml

/-- An event of a document, its alias tied to the place of an event. -/
inductive DocumentEvent where
  | alias (place : Nat)
  | scalar (tag : Option (List Char)) (text : List Char) (plain : Bool)
  | sequenceStart (tag : Option (List Char))
  | sequenceEnd
  | mappingStart (tag : Option (List Char))
  | mappingEnd

/-- The events of a document, what broke it off, and the stream behind it if it ended. -/
structure Gathered where
  events : List DocumentEvent
  outcome : Except Fault EventStream

/-- The events after those in `done`, whose anchors are known by the places of their nodes. -/
def gather : Nat → List DocumentEvent → List (List Char × Nat) → EventStream → Gathered
  | 0, done, _, s => ⟨done.reverse, .ok s⟩
  | fuel + 1, done, anchors, s =>
    match s.next with
    | .error f => ⟨done.reverse, .error f⟩
    | .ok (e, s) =>
      let known : Option (List Char) → List (List Char × Nat)
        | some name => (name, done.length) :: anchors
        | none => anchors
      match e with
      | .streamEnd | .documentEnd => ⟨done.reverse, .ok s⟩
      | .documentStart => gather fuel done anchors s
      | .alias name =>
        match anchors.lookup name with
        | some place => gather fuel (.alias place :: done) anchors s
        | none => ⟨done.reverse, .error .unknownAnchor⟩
      | .scalar anchor tag text plain => gather fuel (.scalar tag text plain :: done) (known anchor) s
      | .sequenceStart anchor tag => gather fuel (.sequenceStart tag :: done) (known anchor) s
      | .sequenceEnd => gather fuel (.sequenceEnd :: done) anchors s
      | .mappingStart anchor tag => gather fuel (.mappingStart tag :: done) (known anchor) s
      | .mappingEnd => gather fuel (.mappingEnd :: done) anchors s

/-- A document as it is written. -/
inductive Tree where
  | scalar (tag : Option (List Char)) (text : List Char) (plain : Bool)
  | seq (tag : Option (List Char)) (items : List Tree)
  | map (tag : Option (List Char)) (entries : List (Tree × Tree))

/-- The greatest depth of nesting. -/
def maxDepth : Nat := 128

/-- What is read, the place behind it, and the number of aliases followed so far. -/
abbrev Built (α : Type) := Except Fault (α × Nat × Nat)

section

variable (events : Array DocumentEvent)

mutual

/-- The node at a place, inside `depth` others. -/
def buildNode (fuel depth place jumps : Nat) : Built Tree :=
  match fuel with
  | 0 => .error .tooDeep
  | fuel + 1 =>
    match events[place]? with
    | none | some .sequenceEnd | some .mappingEnd => .error .missingNode
    | some (.alias target) =>
      if events.size * 100 < jumps + 1 then .error .tooManyAliases
      else
        match buildNode fuel depth target (jumps + 1) with
        | .ok (t, _, jumps) => .ok (t, place + 1, jumps)
        | .error f => .error f
    | some (.scalar tag text plain) => .ok (.scalar tag text plain, place + 1, jumps)
    | some (.sequenceStart tag) =>
      if depth = maxDepth then .error .tooDeep
      else
        match buildItems fuel (depth + 1) (place + 1) jumps with
        | .ok (items, rest) => .ok (.seq tag items, rest)
        | .error f => .error f
    | some (.mappingStart tag) =>
      if depth = maxDepth then .error .tooDeep
      else
        match buildEntries fuel (depth + 1) (place + 1) jumps with
        | .ok (entries, rest) => .ok (.map tag entries, rest)
        | .error f => .error f

def buildItems (fuel depth place jumps : Nat) : Built (List Tree) :=
  match fuel with
  | 0 => .error .tooDeep
  | fuel + 1 =>
    match events[place]? with
    | some .sequenceEnd => .ok ([], place + 1, jumps)
    | _ =>
      match buildNode fuel depth place jumps with
      | .error f => .error f
      | .ok (t, place, jumps) =>
        match buildItems fuel depth place jumps with
        | .ok (ts, rest) => .ok (t :: ts, rest)
        | .error f => .error f

def buildEntries (fuel depth place jumps : Nat) : Built (List (Tree × Tree)) :=
  match fuel with
  | 0 => .error .tooDeep
  | fuel + 1 =>
    match events[place]? with
    | some .mappingEnd => .ok ([], place + 1, jumps)
    | _ =>
      match buildNode fuel depth place jumps with
      | .error f => .error f
      | .ok (k, place, jumps) =>
        match buildNode fuel depth place jumps with
        | .error f => .error f
        | .ok (v, place, jumps) =>
          match buildEntries fuel depth place jumps with
          | .ok (es, rest) => .ok ((k, v) :: es, rest)
          | .error f => .error f

end

end

/-- The tree of a document's events; a stream without events holds a null. -/
def tree (events : List DocumentEvent) (ended : Bool) : Except Fault Tree :=
  if events.isEmpty && ended then .ok (.scalar none [] true)
  else (buildNode events.toArray ((maxDepth + 2) * (events.length + 3)) 0 0 0).map (·.1)

namespace Tree

/-- A collection may not be a variant of a type either. -/
def isVariant (tag : Option (List Char)) : Bool := tag.any fun t => t.head? == some '!'

mutual

def node? : Tree → Except Fault Node
  | .scalar tag text plain => scalarNode tag text plain
  | .seq tag items => if isVariant tag then .error .taggedValue else (itemNodes items).map .seq
  | .map tag entries => if isVariant tag then .error .taggedValue else (entryNodes entries).map .map

def itemNodes : List Tree → Except Fault (List Node)
  | [] => .ok []
  | t :: rest => do return (← node? t) :: (← itemNodes rest)

def entryNodes : List (Tree × Tree) → Except Fault (List (Node × Node))
  | [] => .ok []
  | (k, v) :: rest => do return (← node? k, ← node? v) :: (← entryNodes rest)

end

/-- The text of a scalar, whatever it means. -/
def text? : Tree → Except Fault String
  | .scalar _ text _ => .ok (String.ofList text)
  | _ => .error .notATextTable

/-- A mapping of texts; an empty scalar stands for an empty one. -/
def textTable : Tree → Except Fault (Table String)
  | .map _ entries => do
    let texts ← entries.mapM fun (k, v) => do return (← text? k, ← text? v)
    return Table.ofList texts
  | .scalar _ [] true => .ok .empty
  | _ => .error .notATextTable

end Tree

/-- The first document of a text. -/
structure FirstDocument where
  tree : Except Fault Tree
  /-- A fault behind the document's last event, or the presence of more than the document. -/
  behind : Except Fault Unit

/-- Nothing may follow the first document. -/
def nothingBehind (s : EventStream) : Except Fault Unit :=
  match s.expects with
  | .nothing => .ok ()
  | _ =>
    match s.next with
    | .ok (.streamEnd, _) => .ok ()
    | _ => .error .severalDocuments

def FirstDocument.ofText (text : String) : FirstDocument :=
  let cs := text.toList
  if cs.all isAllowed then
    let g := gather (4 * cs.length + 8) [] [] ⟨.ofText cs, .document true, [], []⟩
    match g.outcome with
    | .ok s => ⟨Yaml.tree g.events true, nothingBehind s⟩
    | .error f =>
      ⟨(Yaml.tree g.events false).mapError fun
          | .missingNode => f
          | other => other, .error f⟩
  else ⟨.error .forbiddenCharacter, .error .forbiddenCharacter⟩

end ApiContracts.Yaml

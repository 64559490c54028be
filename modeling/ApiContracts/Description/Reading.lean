import ApiContracts.Description.Endpoint
import ApiContracts.Document.Node

/-!
# Reading descriptions

Endpoints out of a document tree. A document is a list of endpoints, or a mapping that holds one under `api` or `endpoints`. A record may be written as a mapping or as the list of its fields' values; in a mapping a whole number may stand for the field at that place, fields that are not known are passed over, and a field given twice is refused.
-/

namespace ApiContracts

open Json

namespace Node

/-- A record's fields in order, each with the names it may have, the first of which is its own. -/
abbrev FieldNames := List (List String)

/-- The field a key names, by name or by place; `none` refuses the key, `some none` passes over it. -/
def fieldOf? (names : FieldNames) : Node → Option (Option String)
  | .str s => some ((names.find? fun ns => s ∈ ns).bind List.head?)
  | .int n => if 0 ≤ n ∧ n < (twoTo 64 : Int) then some ((names[n.toNat]?).bind List.head?) else none
  | _ => none

/-- The fields of a mapping; a field given twice is refused. -/
def fieldsOfEntries (names : FieldNames) : List (Node × Node) → Except DecodeError (List (String × Node))
  | [] => .ok []
  | (k, v) :: rest =>
    match fieldOf? names k with
    | none => .error (.mismatch k.kind "field identifier")
    | some none => fieldsOfEntries names rest
    | some (some field) => do
      let others ← fieldsOfEntries names rest
      if (others.lookup field).isSome then throw (.duplicateField field) else return (field, v) :: others

/-- The fields of a record in either form, by their own names. -/
def fields? (names : FieldNames) : Node → Option (List (String × Node))
  | .map entries => (fieldsOfEntries names entries).toOption
  | .seq items =>
    if items.length ≤ names.length then some ((names.filterMap List.head?).zip items) else none
  | _ => none

def text? : Node → Option String
  | .str s => some s
  | _ => none

def flag? : Node → Option Bool
  | .bool b => some b
  | _ => none

def items? : Node → Option (List Node)
  | .seq items => some items
  | _ => none

/-- The field of a record read by `read`, or the default where it is missing. -/
def fieldOr {α : Type} (fields : List (String × Node)) (name : String) (default : α) (read : Node → Option α) : Option α :=
  match fields.lookup name with
  | some v => read v
  | none => some default

end Node

namespace TypeReference

/-- The kind a tag names; where tags may be places, a whole number names the kind at that place. -/
def readKind (byPlace : Bool) : Node → Except DecodeError String
  | .str s => if s ∈ kinds then .ok s else .error (.unknownVariant s kinds)
  | .int n =>
    if byPlace ∧ 0 ≤ n ∧ n < (twoTo 64 : Int) then
      match kinds[n.toNat]? with
      | some kind => .ok kind
      | none => .error (.outOfRange (Node.int n).kind s!"variant index 0 <= i < {kinds.length}")
    else .error (.mismatch (Node.int n).kind "variant identifier")
  | v => .error (.mismatch v.kind "variant identifier")

def named (kind : String) : Node → Except DecodeError TypeReference
  | .str name => (ofKind? kind name).elim (.error (.unknownVariant kind kinds)) .ok
  | v => .error (.mismatch v.kind "a string")

def describe (kind : String) : String := s!"struct variant FieldTypeReference::{Text.capitalized kind}"

/-- Cuts the entry of the tag out of a mapping; the tag is read where it stands. -/
def splitTag (byPlace : Bool) : List (Node × Node) → Except DecodeError (Option String × List (Node × Node))
  | [] => .ok (none, [])
  | (k, v) :: rest =>
    match k with
    | .str "type" => do
      let kind ← readKind byPlace v
      let (other, entries) ← splitTag byPlace rest
      if other.isSome then throw (.duplicateField "type") else return (some kind, entries)
    | k => do
      let (kind, entries) ← splitTag byPlace rest
      return (kind, (k, v) :: entries)

/-- A reference, tagged with its kind under `type`, or as the list of the tag and the name. -/
def ofNode (byPlace : Bool) : Node → Except DecodeError TypeReference
  | .map entries => do
    let (kind, others) ← splitTag byPlace entries
    match kind with
    | none => throw (.missingField "type")
    | some kind =>
      let fields ← Node.fieldsOfEntries [[nameField kind]] others
      match fields with
      | (_, name) :: _ => named kind name
      | [] => throw (.missingField (nameField kind))
  | .seq [] => .error (.missingField "type")
  | .seq (tag :: items) => do
    let kind ← readKind byPlace tag
    match items with
    | [] => throw (.length 0 s!"{describe kind} with 1 element")
    | name :: more =>
      let reference ← named kind name
      if more.isEmpty then return reference else throw (.length (more.length + 1) "1 element in sequence")
  | v => .error (.mismatch v.kind "internally tagged enum FieldTypeReference")

def ofNode? (v : Node) : Option TypeReference := (ofNode true v).toOption

def ofJson (v : Value) : Except DecodeError TypeReference := ofNode false (Node.ofJson v)

end TypeReference

open Node

def Verb.ofNode? : Node → Option Verb
  | .str s => Verb.ofDescription? s
  | .map [(k, .null)] =>
    match k with
    | .str s => Verb.ofDescription? s
    | .int n => if 0 ≤ n then Verb.all[n.toNat]? else none
    | _ => none
  | _ => none

def Field.ofNode? (v : Node) : Option Field := do
  let fields ← v.fields? [["key"], ["type"], ["required"], ["array"]]
  let key ← (← fields.lookup "key").text?
  let type ← TypeReference.ofNode? (← fields.lookup "type")
  let required ← fieldOr fields "required" true flag?
  let array ← fieldOr fields "array" false flag?
  return ⟨key, type, required, array⟩

def ReturnType.ofNode? (v : Node) : Option ReturnType := do
  let fields ← v.fields? [["type"], ["required"], ["array"]]
  let type ← TypeReference.ofNode? (← fields.lookup "type")
  let required ← fieldOr fields "required" true flag?
  let array ← fieldOr fields "array" false flag?
  return ⟨type, required, array⟩

/-- A section: a list of fields, or null for one that is not declared. -/
def Node.section? : Node → Option (Option (List Field))
  | .null => some none
  | v => do return some (← (← v.items?).mapM Field.ofNode?)

def Endpoint.ofNode? (v : Node) : Option Endpoint := do
  let fields ← v.fields? [["method"], ["path"], ["body"], ["paths"], ["queries"], ["headers"], ["return"]]
  let verb ← Verb.ofNode? (← fields.lookup "method")
  let path ← (← fields.lookup "path").text?
  let body ← fieldOr fields "body" none Node.section?
  let paths ← fieldOr fields "paths" none Node.section?
  let queries ← fieldOr fields "queries" none Node.section?
  let headers ← fieldOr fields "headers" none Node.section?
  let returns ← ReturnType.ofNode? (← fields.lookup "return")
  return ⟨verb, path, body, paths, queries, headers, returns⟩

def endpointsOfList? (v : Node) : Option (List Endpoint) := do (← v.items?).mapM Endpoint.ofNode?

def endpointsOfWrapper? : Node → Option (List Endpoint)
  | .map entries => do
    let fields ← (Node.fieldsOfEntries [["api", "endpoints"]] entries).toOption
    endpointsOfList? (← fields.lookup "api")
  | _ => none

/-- The endpoints of a whole document. -/
def endpointsOf? (v : Node) : Option (List Endpoint) := endpointsOfList? v <|> endpointsOfWrapper? v

def notADescription : String := "data did not match any variant of untagged enum EndpointDocument"

end ApiContracts

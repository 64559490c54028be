import ApiContracts.Description.Verb
import ApiContracts.Section
import ApiContracts.Json.Value

/-!
# Endpoints

One declared operation of an API: a verb, a path, the typed fields of its sections, and what it returns. The key `METHOD /path` names an endpoint everywhere else. `toJson` writes an endpoint as a description would, leaving out the sections that are not declared.
-/

namespace ApiContracts

open Json

inductive TypeReference where
  /-- A built-in primitive. -/
  | native (name : String)
  /-- A plain data shape. -/
  | schema (name : String)
  /-- A stored record. -/
  | table (name : String)
  /-- An enumeration. -/
  | enum (name : String)
  deriving DecidableEq

namespace TypeReference

/-- The names of the four kinds, in order. -/
def kinds : List String := ["native", "schema", "table", "enum"]

def kindName : TypeReference → String
  | native _ => "native"
  | schema _ => "schema"
  | table _ => "table"
  | enum _ => "enum"

def typeName : TypeReference → String
  | native n | schema n | table n | enum n => n

/-- The field that holds the name, for a kind. -/
def nameField (kind : String) : String :=
  match kind with
  | "native" => "native_type"
  | "schema" => "schema_name"
  | "table" => "table_name"
  | _ => "enum_name"

def ofKind? (kind name : String) : Option TypeReference :=
  match kind with
  | "native" => some (native name)
  | "schema" => some (schema name)
  | "table" => some (table name)
  | "enum" => some (enum name)
  | _ => none

def toJson (t : TypeReference) : Value :=
  .object [("type", .str t.kindName), (nameField t.kindName, .str t.typeName)]

end TypeReference

structure Field where
  key : String
  type : TypeReference
  required : Bool := true
  array : Bool := false
  deriving DecidableEq

def Field.toJson (f : Field) : Value :=
  .object [("key", .str f.key), ("type", f.type.toJson), ("required", .bool f.required), ("array", .bool f.array)]

/-- The declared result; one that is not required may be null. -/
structure ReturnType where
  type : TypeReference
  required : Bool := true
  array : Bool := false
  deriving DecidableEq

def ReturnType.toJson (r : ReturnType) : Value :=
  .object [("type", r.type.toJson), ("required", .bool r.required), ("array", .bool r.array)]

structure Endpoint where
  verb : Verb
  path : String
  body : Option (List Field) := none
  paths : Option (List Field) := none
  queries : Option (List Field) := none
  headers : Option (List Field) := none
  returns : ReturnType
  deriving DecidableEq

namespace Endpoint

def key (e : Endpoint) : String := e.verb.wireName ++ " " ++ e.path

/-- The body fields, which count only for verbs that carry a body. -/
def effectiveBody (e : Endpoint) : Option (List Field) := if e.verb.acceptsBody then e.body else none

/-- The fields declared for a section; a section without fields counts as not declared. -/
def fieldsOf (e : Endpoint) (s : Section) : List Field :=
  let declared := match s with
    | .paths => e.paths
    | .headers => e.headers
    | .query => e.queries
    | .body => e.effectiveBody
  declared.getD []

def sectionJson (name : String) : Option (List Field) → List (String × Value)
  | some fields => [(name, .arr (fields.map Field.toJson))]
  | none => []

def toJson (e : Endpoint) : Value :=
  .object <|
    [("method", .str e.verb.name), ("path", .str e.path)] ++ sectionJson "body" e.body ++ sectionJson "paths" e.paths ++
      sectionJson "queries" e.queries ++ sectionJson "headers" e.headers ++ [("return", e.returns.toJson)]

end Endpoint

end ApiContracts

import ApiContracts.Compile.Fault
import ApiContracts.Compile.ModulePath
import ApiContracts.Rules.Check
import ApiContracts.Table

/-!
# Resolving types

A declared type becomes a type of the emitted source, the check its values undergo, and the import it needs. Native names are known here, in any letter case; the others are looked up, enumerations and tables among the models, schemas among the schemas.
-/

namespace ApiContracts.Compile

open Text

inductive Primitive where
  | text
  | float
  | integer
  | boolean
  | any
  deriving DecidableEq

namespace Primitive

def typeText : Primitive → String
  | text => "String"
  | float => "f64"
  | integer => "i64"
  | boolean => "bool"
  | any => "serde_json::Value"

def check {τ : Type} : Primitive → Check τ
  | text => .string
  | float => .number
  | integer => .integer
  | boolean => .boolean
  | any => .any

def natives : Primitive → List String
  | text => ["string", "text", "uuid", "char", "varchar", "date", "datetime", "timestamp", "time"]
  | float => ["number", "float", "double", "decimal", "real"]
  | integer => ["integer", "int", "bigint", "smallint"]
  | boolean => ["boolean", "bool"]
  | any => ["any", "json", "object"]

def all : List Primitive := [text, float, integer, boolean, any]

def ofNative? (name : String) : Option Primitive := all.find? fun p => lower name ∈ p.natives

end Primitive

/-- Where the named types live: the paths of models and of schemas. -/
structure Lookups where
  models : Table String := Table.empty
  schemas : Table String := Table.empty

/-- A type of the emitted source, before it is wrapped. -/
inductive BaseType where
  | primitive (p : Primitive)
  | named (name : String)
  deriving DecidableEq

def BaseType.typeText : BaseType → String
  | primitive p => p.typeText
  | named n => n

structure Import where
  path : String
  name : String
  deriving DecidableEq

def Import.line (i : Import) : String := s!"use {i.path}::{i.name};"

structure Resolved where
  base : BaseType
  check : Check String
  source : Option Import
  deriving DecidableEq

namespace Lookups

/-- The path of a named type, or the fault that it has none. -/
def find (table : Table String) (kind tableName name endpoint : String) : Except Fault String :=
  match table.get? name with
  | some path => .ok path
  | none => .error (.unresolvedType kind name tableName endpoint)

/-- A type named by the description, for the module at `place`. -/
def resolve (l : Lookups) (place endpoint : String) (type : TypeReference) : Except Fault Resolved :=
  let imported (name target : String) : Option Import := some ⟨relativePath place target, name⟩
  match type with
  | .native name =>
    match Primitive.ofNative? name with
    | some p => .ok ⟨.primitive p, p.check, none⟩
    | none => .error (.unknownNative name endpoint)
  | .schema name => (find l.schemas "schema" "schema" name endpoint).map fun t => ⟨.named name, .nested name, imported name t⟩
  | .table name => (find l.models "table" "model" name endpoint).map fun t => ⟨.named name, .nested name, imported name t⟩
  | .enum name => (find l.models "enum" "model" name endpoint).map fun t => ⟨.named name, .enum name, imported name t⟩

end Lookups

structure WrappedType where
  base : BaseType
  array : Bool
  optional : Bool
  deriving DecidableEq

def WrappedType.typeText (w : WrappedType) : String :=
  let inner := if w.array then s!"Vec<{w.base.typeText}>" else w.base.typeText
  if w.optional then s!"Option<{inner}>" else inner

end ApiContracts.Compile

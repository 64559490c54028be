import ApiContracts.Rules.Check
import ApiContracts.Shape.Basic

/-!
# Named types

A type that rules can ask for: its name and the reading of its values. A value belongs to the type if it can be read.
-/

namespace ApiContracts

open Json

structure NamedType where
  name : String
  /-- The settled form of a value, or why it does not fit. -/
  decode : Value → Except DecodeError Value

namespace NamedType

def accepts (t : NamedType) (v : Value) : Bool := (t.decode v).isOk

def ofShape (decls : Declarations) (name : String) : NamedType := ⟨name, Shape.decode decls (.named name)⟩

end NamedType

def Check.shown : Check NamedType → String
  | .any => "Any"
  | .string => "String"
  | .number => "Number"
  | .integer => "Integer"
  | .boolean => "Boolean"
  | .enum t => s!"Enum({t.name})"
  | .nested t => s!"Nested({t.name})"

def FieldRule.shown (r : FieldRule NamedType) : String :=
  s!"FieldRule \x7b key: {Text.quote r.key}, check: {r.check.shown}, required: {r.required}, array: {r.array} \x7d"

end ApiContracts

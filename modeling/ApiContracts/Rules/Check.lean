import ApiContracts.Section
import ApiContracts.Text.Quoted

/-!
# Checks and rules

What a field's value must be. `τ` is what stands for a named type: its name in an emitted table, the type itself in a table that requests are checked against. The text of a rule is an expression of the emitted source; its shown form names the parts of a rule for a reader.
-/

namespace ApiContracts

open Text

inductive Check (τ : Type) where
  | any
  | string
  | number
  | integer
  | boolean
  /-- A member of an enumeration. -/
  | enum (type : τ)
  /-- An object of a type, or arrays of such objects. -/
  | nested (type : τ)
  deriving DecidableEq

def Check.map {τ υ : Type} (f : τ → υ) : Check τ → Check υ
  | any => any
  | string => string
  | number => number
  | integer => integer
  | boolean => boolean
  | enum t => enum (f t)
  | nested t => nested (f t)

/-- The check a name stands for, `named` standing for the type of those that have one. -/
def Check.ofName? {τ : Type} (named : τ) : String → Option (Check τ)
  | "any" => some any
  | "string" => some string
  | "number" => some number
  | "integer" => some integer
  | "boolean" => some boolean
  | "enum" => some (enum named)
  | "nested" => some (nested named)
  | _ => none

structure FieldRule (τ : Type) where
  key : String
  check : Check τ
  required : Bool := true
  array : Bool := false
  deriving DecidableEq

def FieldRule.map {τ υ : Type} (f : τ → υ) (r : FieldRule τ) : FieldRule υ := ⟨r.key, r.check.map f, r.required, r.array⟩

structure SectionRules (τ : Type) where
  part : Section
  rules : List (FieldRule τ)
  deriving DecidableEq

def SectionRules.map {τ υ : Type} (f : τ → υ) (s : SectionRules τ) : SectionRules υ := ⟨s.part, s.rules.map (·.map f)⟩

namespace Check

/-- The check by its variant and the name in it, if any. -/
def describe : Check String → String
  | any => "Any"
  | string => "String"
  | number => "Number"
  | integer => "Integer"
  | boolean => "Boolean"
  | enum name => s!"Enum({quote name})"
  | nested name => s!"Nested({quote name})"

def expression : Check String → String
  | any => "Check::Any"
  | string => "Check::String"
  | number => "Check::Number"
  | integer => "Check::Integer"
  | boolean => "Check::Boolean"
  | enum name => s!"Check::Enum \x7b name: \"{name}\", test: is_member::<{name}> \x7d"
  | nested name => s!"Check::Nested \x7b name: \"{name}\", test: conforms::<{name}> \x7d"

end Check

def FieldRule.expression (r : FieldRule String) : String :=
  s!"FieldRule::new({quote r.key}, {r.check.expression})" ++ (if r.required then "" else ".optional()") ++
    (if r.array then ".array()" else "")

end ApiContracts

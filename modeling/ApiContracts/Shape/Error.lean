import ApiContracts.Json.Printer

/-!
# Why a value does not fit

The faults of a value against a shape, and their texts. A text names what was found and what was expected there, never the place.
-/

namespace ApiContracts

open Decimal Json Text

inductive DecodeError where
  /-- A value of another kind than expected. -/
  | mismatch (found expected : String)
  /-- A value of the right kind outside the range. -/
  | outOfRange (found expected : String)
  | missingField (name : String)
  | unknownField (name : String) (known : List String)
  | unknownVariant (name : String) (known : List String)
  /-- A list with the wrong number of elements. -/
  | length (found : Nat) (expected : String)
  | duplicateField (name : String)
  deriving DecidableEq

def doubleKind (x : Binary64) : String := s!"floating point `{doubleText x}`"

def Json.Value.kind : Value → String
  | .null => "null"
  | .bool b => if b then "boolean `true`" else "boolean `false`"
  | .int n => s!"integer `{n}`"
  | .double x => doubleKind x
  | .str s => s!"string {quote s}"
  | .arr _ => "sequence"
  | .obj _ => "map"

def oneOf : List String → String
  | [] => "nothing"
  | [a] => s!"`{a}`"
  | [a, b] => s!"`{a}` or `{b}`"
  | names => "one of " ++ ", ".intercalate (names.map fun n => s!"`{n}`")

def DecodeError.message : DecodeError → String
  | .mismatch found expected => s!"invalid type: {found}, expected {expected}"
  | .outOfRange found expected => s!"invalid value: {found}, expected {expected}"
  | .missingField name => s!"missing field `{name}`"
  | .unknownField name known => s!"unknown field `{name}`, expected {oneOf known}"
  | .unknownVariant name known => s!"unknown variant `{name}`, expected {oneOf known}"
  | .length found expected => s!"invalid length {found}, expected {expected}"
  | .duplicateField name => s!"duplicate field `{name}`"

end ApiContracts

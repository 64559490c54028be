import ApiContracts.Section

/-!
# Why a description does not compile
-/

namespace ApiContracts.Compile

inductive Fault where
  /-- A named type that its look-up table does not hold. -/
  | unresolvedType (kind name table endpoint : String)
  | unknownNative (name endpoint : String)
  /-- Two endpoints with one contract name. -/
  | duplicateContract (identifier first second : String)
  /-- Two keys of one section with one field name. -/
  | duplicateField (endpoint : String) (part : Section) (name first second : String)
  deriving DecidableEq

def Fault.message : Fault → String
  | unresolvedType kind name table endpoint =>
    s!"{kind} reference `{name}` is not present in the {table} lookup table (endpoint {endpoint})"
  | unknownNative name endpoint => s!"unknown native type `{name}` (endpoint {endpoint})"
  | duplicateContract identifier first second =>
    s!"endpoints `{first}` and `{second}` both produce contract `{identifier}`"
  | duplicateField endpoint part name first second =>
    s!"{part.name} keys `{first}` and `{second}` both produce field `{name}` (endpoint {endpoint})"

end ApiContracts.Compile

import ApiContracts.Rules.Decode

/-!
# Checking sections

Every rule of a section is checked against the decoded object, and all violations of the section are told together. Sections are decoded and checked in order; the first that is violated ends the matter.
-/

namespace ApiContracts

open Json

/-- A violated section, with its violations. -/
structure Violation where
  part : Section
  message : String
  deriving DecidableEq

def plainViolation (wanted : String) (fits : Bool) (key start : String) : Option String :=
  if fits then none else some s!"{start}{key} must be {wanted}"

mutual

/-- The violations of a nested check: arrays are looked into, and their items told one by one. -/
def nestedViolation (t : NamedType) (key : String) : Value → Option String
  | .obj members =>
    match t.decode (.obj members) with
    | .ok _ => none
    | .error e => some s!"{key}: {e.message}"
  | .arr items =>
    let errors := nestedViolations t key items
    if errors.isEmpty then none else some (", ".intercalate errors)
  | _ => some s!"nested property {key} must be either object or array"

def nestedViolations (t : NamedType) (key : String) : List Value → List String
  | [] => []
  | v :: rest => (nestedViolation t key v).toList ++ nestedViolations t key rest

end

/-- What is wrong with a value, in words that start with `start`. -/
def Check.violation (check : Check NamedType) (key start : String) (v : Value) : Option String :=
  match check with
  | .any => none
  | .string => plainViolation "a string" (v matches .str _) key start
  | .number =>
    plainViolation "a number conforming to the specified constraints" (v matches .int _ || v matches .double _) key start
  | .integer => plainViolation "an integer number" (v matches .int _) key start
  | .boolean => plainViolation "a boolean value" (v matches .bool _) key start
  | .enum t => plainViolation s!"a valid {t.name} value" (t.accepts v) key start
  | .nested t => nestedViolation t key v

/-- The violations of one rule by what a section holds for its key. -/
def FieldRule.violations (r : FieldRule NamedType) (given : Option Value) : List String :=
  match given.filter (!·.isNull) with
  | none => if r.required then [s!"{r.key} should not be null or undefined"] else []
  | some v =>
    if r.array then
      match v with
      | .arr items => items.filterMap (r.check.violation r.key "each value in ")
      | _ => [s!"{r.key} must be an array"]
    else (r.check.violation r.key "" v).toList

namespace SectionRules

/-- The violations of a section's rules, in order. -/
def violations (s : SectionRules NamedType) (decoded : Table Value) : List String :=
  s.rules.flatMap fun r => r.violations (decoded.get? r.key)

/-- Accepts a decoded section without violations. -/
def validate (s : SectionRules NamedType) (decoded : Table Value) : Except Violation Unit :=
  match s.violations decoded with
  | [] => .ok ()
  | found => .error ⟨s.part, ", ".intercalate found⟩

/-- The decoded section, if it is valid. -/
def decodeValid (s : SectionRules NamedType) (req : Request) : Except Violation (Table Value) :=
  (s.validate (s.decode req)).map fun _ => s.decode req

end SectionRules

/-- Sections as one object, by their names; of sections with one name the last counts. -/
def contractOf (done : Table Value) : List (SectionRules NamedType) → Request → Except Violation (Table Value)
  | [], _ => .ok done
  | s :: rest, req =>
    match s.decodeValid req with
    | .ok decoded => contractOf (done.insert s.part.name (.obj decoded.entries)) rest req
    | .error v => .error v

/-- The valid contract of a request, or the first violated section. -/
def decodeAndValidate (sections : List (SectionRules NamedType)) (req : Request) : Except Violation Value :=
  (contractOf .empty sections req).map fun t => .obj t.entries

end ApiContracts

import ApiContracts.Compile.Contract
import ApiContracts.Service.Operation

/-!
# Request types of contracts

What the types of an emitted module mean: the shape that a contract's request is read as, with a record for each section. `Contract.operation` binds a contract to business code, given the types that the description names.
-/

namespace ApiContracts.Compile

open Json

def Primitive.shape : Primitive → Shape
  | text => .text
  | float => .float
  | integer => .integer
  | boolean => .boolean
  | any => .any

def BaseType.shape : BaseType → Shape
  | primitive p => p.shape
  | named n => .named n

def WrappedType.shape (w : WrappedType) : Shape :=
  let inner := if w.array then .list w.base.shape else w.base.shape
  if w.optional then .optional inner else inner

def SectionField.shape (f : SectionField) : FieldShape := ⟨f.key, f.type.shape, none⟩

namespace Contract

def requestName (c : Contract) : String := if c.isMinimal then RawParams.declaration.1 else s!"{c.identifier}_Req"

def sectionRecord (c : Contract) (s : SectionType) : RecordShape := ⟨c.typeName s, s.fields.map (·.shape), false⟩

/-- The record of a request: one field for each section. -/
def requestRecord (c : Contract) : RecordShape :=
  ⟨c.requestName, c.sections.map fun s => ⟨s.part.name, .named (c.typeName s), none⟩, false⟩

/-- The records that the request type is made of. The fields of a section have the types that the description names, which the names of these records do not hide. -/
def declarations (c : Contract) (types : Declarations) : Declarations :=
  if c.isMinimal then [RawParams.declaration]
  else
    (c.requestName, .record c.requestRecord) ::
      c.sections.map fun s => (c.typeName s, .foreign (decodeRecord types (c.sectionRecord s)))

/-- The rules over the types that `types` declares. -/
def checks (c : Contract) (types : Declarations) : List (SectionRules NamedType) :=
  c.rules.map (·.map (NamedType.ofShape types))

def operation (c : Contract) (types : Declarations) (business : Value → Outcome) : Operation where
  mode := if c.isMinimal then .passThrough else .typed
  sections := c.checks types
  request := Shape.decode (c.declarations types) (.named c.requestName)
  business

end Contract

end ApiContracts.Compile

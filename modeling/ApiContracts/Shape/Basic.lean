import ApiContracts.Shape.Error

/-!
# Shapes

A shape describes the values that a piece of typed data is read from, and `decode` reads one: it answers the value in its settled form, with defaults filled in and unknown members left out, or says what does not fit. Records and choices are declared by name in a list of declarations, so a record may hold itself; a type that is declared elsewhere stands in the list with its reading.

An object is read member by member in the order of its keys, so the first bad key in that order is reported; what is missing is reported afterwards, in the order of the fields. A record may also be given as the list of its fields' values, and a name out of a choice as an object with that one key and null.
-/

namespace ApiContracts

open Json Decimal

inductive Shape where
  | any
  | object
  | text
  /-- An integer in `-2^63 .. 2^63 - 1`. -/
  | integer
  | float
  | boolean
  /-- A boolean, or an integer that fits a byte. -/
  | level
  | list (item : Shape)
  /-- Null or the shape; a missing field counts as null. -/
  | optional (item : Shape)
  /-- A declared record or choice. -/
  | named (name : String)
  deriving DecidableEq

/-- A field of a record; a field with a default may be missing. -/
structure FieldShape where
  key : String
  shape : Shape
  default : Option Value := none

structure RecordShape where
  name : String
  fields : List FieldShape
  /-- Whether members that are no fields are refused. -/
  closed : Bool := false

inductive Declaration where
  | record (r : RecordShape)
  | choice (variants : List String)
  /-- A type declared elsewhere, by its reading. -/
  | foreign (read : Value → Except DecodeError Value)

abbrev Declarations := List (String × Declaration)

namespace RecordShape

def keys (r : RecordShape) : List String := r.fields.map (·.key)

def lengthText (r : RecordShape) : String :=
  if r.fields.length = 1 then s!"struct {r.name} with 1 element"
  else s!"struct {r.name} with {r.fields.length} elements"

end RecordShape

def FieldShape.missing (f : FieldShape) : Except DecodeError Value :=
  match f.default, f.shape with
  | some v, _ => .ok v
  | none, .optional _ => .ok .null
  | none, _ => .error (.missingField f.key)

/-- The fields of a record from the members that were read, in the order of the fields. -/
def assembleFields (found : List (String × Value)) : List FieldShape → Except DecodeError (List (String × Value))
  | [] => .ok []
  | f :: rest => do
    let value ← match found.lookup f.key with
      | some v => .ok v
      | none => f.missing
    let others ← assembleFields found rest
    return (f.key, value) :: others

def decodeChoice (variants : List String) : Value → Except DecodeError Value
  | .str s => if s ∈ variants then .ok (.str s) else .error (.unknownVariant s variants)
  | .obj [(s, v)] =>
    if s ∉ variants then .error (.unknownVariant s variants)
    else if v.isNull then .ok (.str s)
    else .error (.mismatch v.kind "unit")
  | .obj _ => .error (.outOfRange "map" "map with a single key")
  | v => .error (.mismatch v.kind "string or map")

def decodeInteger : Value → Except DecodeError Value
  | .int n => if isSigned64 n then .ok (.int n) else .error (.outOfRange (Value.int n).kind "i64")
  | v => .error (.mismatch v.kind "i64")

def decodeFloat : Value → Except DecodeError Value
  | .int n => .ok (.double (Binary64.ofInt n))
  | .double x => .ok (.double x)
  | v => .error (.mismatch v.kind "f64")

def decodeText : Value → Except DecodeError Value
  | .str s => .ok (.str s)
  | v => .error (.mismatch v.kind "a string")

def decodeBoolean : Value → Except DecodeError Value
  | .bool b => .ok (.bool b)
  | v => .error (.mismatch v.kind "a boolean")

def decodeObject : Value → Except DecodeError Value
  | .obj members => .ok (.obj members)
  | v => .error (.mismatch v.kind "a map")

def decodeLevel : Value → Except DecodeError Value
  | .bool b => .ok (.bool b)
  | .int n => if 0 ≤ n ∧ n ≤ 255 then .ok (.int n) else .error (.mismatch (Value.int n).kind "a level")
  | v => .error (.mismatch v.kind "a level")

mutual

/-- The settled form of a value of a shape. -/
def Shape.decode (decls : Declarations) (shape : Shape) (value : Value) : Except DecodeError Value :=
  match shape with
  | .any => .ok value
  | .object => decodeObject value
  | .text => decodeText value
  | .integer => decodeInteger value
  | .float => decodeFloat value
  | .boolean => decodeBoolean value
  | .level => decodeLevel value
  | .optional item =>
    match value with
    | .null => .ok .null
    | v => item.decode decls v
  | .list item =>
    match value with
    | .arr items => (decodeItems decls item items).map .arr
    | v => .error (.mismatch v.kind "a sequence")
  | .named name =>
    match decls.lookup name with
    | some (.choice variants) => decodeChoice variants value
    | some (.record r) => decodeRecord decls r value
    | some (.foreign read) => read value
    | none => .error (.mismatch value.kind s!"struct {name}")
termination_by (sizeOf value, sizeOf shape)

/-- A record by its members, or by the list of its fields' values. -/
def decodeRecord (decls : Declarations) (r : RecordShape) (value : Value) : Except DecodeError Value :=
  match value with
  | .obj members => do
    let found ← decodeMembers decls r members
    return .object (← assembleFields found r.fields)
  | .arr items => do
    let fields ← decodeFields decls r items.length r.fields 0 items
    return .object fields
  | v => .error (.mismatch v.kind s!"struct {r.name}")
termination_by (sizeOf value, 0)

def decodeItems (decls : Declarations) (item : Shape) (items : List Value) : Except DecodeError (List Value) :=
  match items with
  | [] => .ok []
  | v :: rest => do
    let first ← item.decode decls v
    let others ← decodeItems decls item rest
    return first :: others
termination_by (sizeOf items, 0)

/-- The members that are fields, read. -/
def decodeMembers (decls : Declarations) (r : RecordShape) (members : List (String × Value)) :
    Except DecodeError (List (String × Value)) :=
  match members with
  | [] => .ok []
  | (key, value) :: rest =>
    match r.fields.find? (·.key == key) with
    | some f => do
      let v ← f.shape.decode decls value
      let others ← decodeMembers decls r rest
      return (key, v) :: others
    | none => if r.closed then .error (.unknownField key r.keys) else decodeMembers decls r rest
termination_by (sizeOf members, 0)

/-- Fields given by position, of a list that has `total` elements. -/
def decodeFields (decls : Declarations) (r : RecordShape) (total : Nat) (fields : List FieldShape) (index : Nat)
    (items : List Value) : Except DecodeError (List (String × Value)) :=
  match fields, items with
  | [], [] => .ok []
  | [], _ :: _ => .error (.length total "fewer elements in array")
  | f :: others, [] =>
    match f.default with
    | some v => do return (f.key, v) :: (← decodeFields decls r total others (index + 1) [])
    | none => .error (.length index r.lengthText)
  | f :: others, v :: rest => do
    let value ← f.shape.decode decls v
    return (f.key, value) :: (← decodeFields decls r total others (index + 1) rest)
termination_by (sizeOf items, sizeOf fields)

end

end ApiContracts

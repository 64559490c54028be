import ApiContracts.Service.Request
import ApiContracts.Shape.Basic
import ApiContracts.Table

/-!
# Raw parameters

A request handed over untouched: its body and its parameters as texts. A query key that repeats gives the list of its values; elsewhere the last value of a name counts.
-/

namespace ApiContracts

open Json

structure RawParams where
  body : Value := .null
  paths : Table Value := .empty
  query : Table Value := .empty
  headers : Table Value := .empty

namespace RawParams

def addQuery (t : Table Value) (key value : String) : Table Value :=
  t.insert key <| match t.get? key with
    | some (.arr items) => .arr (items ++ [.str value])
    | some first => .arr [first, .str value]
    | none => .str value

/-- Names with their values as texts, the last of a name counting. -/
def lastOf (entries : List (String × String)) : Table Value := Table.ofList (entries.map fun (k, v) => (k, .str v))

def ofRequest (req : Request) : RawParams where
  body := req.body.getD .null
  paths := lastOf req.pathParams
  query := req.query.foldl (fun t (k, v) => addQuery t k v) .empty
  headers := lastOf req.headers

def toValue (p : RawParams) : Value :=
  .object [("body", p.body), ("paths", .obj p.paths.entries), ("query", .obj p.query.entries),
    ("headers", .obj p.headers.entries)]

/-- Raw parameters as a type of their own; every field may be missing. -/
def declaration : String × Declaration :=
  ("RawParams", .record
    { name := "RawParams"
      fields :=
        [⟨"body", .any, some .null⟩, ⟨"paths", .object, some (.obj [])⟩, ⟨"query", .object, some (.obj [])⟩,
          ⟨"headers", .object, some (.obj [])⟩] })

end RawParams

end ApiContracts

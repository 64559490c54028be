import ApiContracts.Json.Value
import ApiContracts.Shape.Error

/-!
# Document trees

What a description document holds, whichever notation it is written in: scalars, sequences, and mappings whose keys may be any node and may repeat. Nothing is settled yet; a reader that refuses repeated keys still sees them.
-/

namespace ApiContracts

open Json Decimal

inductive Node where
  | null
  | bool (b : Bool)
  | int (n : Int)
  | double (x : Binary64)
  | str (s : String)
  | seq (items : List Node)
  | map (entries : List (Node × Node))

instance : Inhabited Node := ⟨.null⟩

namespace Node

mutual

/-- A JSON value as a node, its members in their order. -/
def ofJson : Value → Node
  | .null => .null
  | .bool b => .bool b
  | .int n => .int n
  | .double x => .double x
  | .str s => .str s
  | .arr items => .seq (ofJsonItems items)
  | .obj members => .map (ofJsonMembers members)

def ofJsonItems : List Value → List Node
  | [] => []
  | v :: rest => ofJson v :: ofJsonItems rest

def ofJsonMembers : List (String × Value) → List (Node × Node)
  | [] => []
  | (k, v) :: rest => (.str k, ofJson v) :: ofJsonMembers rest

end

def kind : Node → String
  | .null => Value.null.kind
  | .bool b => (Value.bool b).kind
  | .int n => (Value.int n).kind
  | .double x => (Value.double x).kind
  | .str s => (Value.str s).kind
  | .seq _ => (Value.arr []).kind
  | .map _ => (Value.obj []).kind

end Node

end ApiContracts

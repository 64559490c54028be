import ApiContracts.Table
import ApiContracts.Decimal.Shortest
import ApiContracts.Text.Quoted

/-!
# JSON values

The data that requests, responses and descriptions are made of. Integers are exact and apart from doubles: `7` and `7.0` are different values. The members of an object are a list of entries; a value is canonical when every object in it lists its members in increasing order of their keys, and `canonical` brings any value into that form, the last of several members with one key staying.
-/

namespace ApiContracts.Json

open Decimal

inductive Value where
  | null
  | bool (b : Bool)
  | int (n : Int)
  | double (x : Binary64)
  | str (s : String)
  | arr (items : List Value)
  | obj (members : List (String × Value))

instance : Inhabited Value := ⟨.null⟩

namespace Value

mutual

/-- The value with every object sorted by key. -/
def canonical : Value → Value
  | .arr items => .arr (canonicalItems items)
  | .obj members => .obj (sortEntries (canonicalMembers members))
  | v => v

def canonicalItems : List Value → List Value
  | [] => []
  | v :: rest => canonical v :: canonicalItems rest

def canonicalMembers : List (String × Value) → List (String × Value)
  | [] => []
  | (k, v) :: rest => (k, canonical v) :: canonicalMembers rest

end

def object (members : List (String × Value)) : Value := .obj (sortEntries members)

def isNull : Value → Bool
  | .null => true
  | _ => false

/-- The member of an object, absent for anything else. -/
def member? (key : String) : Value → Option Value
  | .obj members => members.lookup key
  | _ => none

def strings (texts : List String) : Value := .arr (texts.map .str)

/-- The text of a value that may be missing. -/
def ofOption : Option Value → Value
  | some v => v
  | none => .null

def pairs (entries : List (String × String)) : Value := .arr (entries.map fun (k, v) => .arr [.str k, .str v])

end Value

end ApiContracts.Json

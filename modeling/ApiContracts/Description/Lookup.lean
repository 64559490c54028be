import ApiContracts.Json.Reader
import ApiContracts.Shape.Error
import ApiContracts.Table

/-!
# Look-up tables

An object of texts, as a value or as a JSON text. A JSON text is read as it goes, so what does not fit is reported where it stands: an opening bracket before it, everything else behind it.
-/

namespace ApiContracts.Description

open Json

/-- The fault of a value that is not what was expected, unless the value itself cannot be read. -/
def misplaced (c : Cursor) (expected : String) : ReadError :=
  let c := c.skipBlanks
  let shape (found : String) : Fault := .shape (DecodeError.mismatch found expected).message
  match c.rest with
  | b :: _ =>
    if b == 0x5b then c.fault (shape (Value.arr []).kind)
    else if b == 0x7b then c.fault (shape (Value.obj []).kind)
    else
      match readValue c with
      | .ok (v, behind) => behind.fault (shape v.kind)
      | .error e => e
  | [] => c.fault .eofInValue

def readText (c : Cursor) : Read String :=
  let c := c.skipBlanks
  match c.rest with
  | [] => .error (c.fault .eofInValue)
  | b :: _ => if b == 0x22 then readString c.next else .error (misplaced c "a string")

def readTextEntries : Nat → Bool → Cursor → Except ReadError (List (String × String) × Cursor)
  | 0, _, c => .error (c.fault .eofInObject)
  | fuel + 1, first, c => do
    let (more, c) ← nextMember first c
    if more then
      let (key, c) ← readKey c
      let (value, c) ← readText c
      let (entries, c) ← readTextEntries fuel false c
      return ((key, value) :: entries, c)
    else return ([], c)

/-- The table of a whole text. -/
def readJsonLookup (text : String) : Except ReadError (Table String) := do
  let c := (Cursor.ofString text).skipBlanks
  match c.rest with
  | [] => throw (c.fault .eofInValue)
  | b :: _ =>
    if b == 0x7b then
      let (entries, c) ← readTextEntries (c.rest.length + 1) true c.next
      readEnd c
      return Table.ofList entries
    else throw (misplaced c "a map")

def entryText : String × Value → Except DecodeError (String × String)
  | (key, .str s) => .ok (key, s)
  | (_, v) => .error (.mismatch v.kind "a string")

def lookupOfValue : Value → Except DecodeError (Table String)
  | .obj members => (members.mapM entryText).map Table.ofList
  | v => .error (.mismatch v.kind "a map")

end ApiContracts.Description

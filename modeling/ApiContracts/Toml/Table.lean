import ApiContracts.Toml.Scalar

/-!
# Tables of TOML

What a text holds is a table of keys, whose parts are written in any order: under headers, by dotted keys, or inside braces. Where a table comes from decides what may still be added to it, so each table keeps its origin. No key is written twice.
-/

namespace ApiContracts.Toml

inductive Origin where
  /-- It is on the way of a header to another table. -/
  | implied
  /-- It is on the way of a dotted key. -/
  | dotted
  /-- It has a header of its own. -/
  | header
  /-- It stands inside braces. -/
  | inline
  deriving DecidableEq

inductive Item where
  | scalar (s : Scalar)
  | array (items : List Item)
  | table (origin : Origin) (entries : List (String × Item))
  /-- An array of tables, each with its own header. -/
  | tables (elements : List (List (String × Item)))

abbrev Entries := List (String × Item)

/-- A change of a table; it may be refused. -/
abbrev Change := Origin → Entries → Option (Origin × Entries)

def replaceEntry (key : String) (item : Item) : Entries → Entries
  | [] => []
  | (k, n) :: rest => if k = key then (k, item) :: rest else (k, n) :: replaceEntry key item rest

/-- Changes the table at a path. Tables that are missing on the way are made; `way` tells by what. Dotted keys do not enter a table that has a header, and nothing enters one in braces. -/
def changeAt (way : Origin) (change : Change) : List String → Change
  | [], origin, entries => change origin entries
  | key :: path, origin, entries =>
    match entries.lookup key with
    | none => (changeAt way change path way []).map fun (o, es) => (origin, entries ++ [(key, .table o es)])
    | some (.table o es) =>
      if o = .inline ∨ (way = .dotted ∧ o = .header) then none
      else (changeAt way change path o es).map fun (o, es) => (origin, replaceEntry key (.table o es) entries)
    | some (.tables elements) =>
      (changeAt way change path .header (elements.getLast?.getD [])).map fun (_, es) =>
        (origin, replaceEntry key (.tables (elements.dropLast ++ [es])) entries)
    | some _ => none

/-- Adds the last key of a path to the table it belongs to: one made by dotted keys if the path has more keys, any other for a single key. -/
def assignLast (single : Bool) (key : String) (item : Item) : Change := fun origin entries =>
  if single = decide (origin = .dotted) then none
  else if (entries.lookup key).isSome then none
  else some (origin, entries ++ [(key, item)])

def assign (path : List String) (item : Item) : Change :=
  match path.getLast? with
  | none => fun _ _ => none
  | some key => changeAt .dotted (assignLast (path.length = 1) key item) path.dropLast

def openTable (key : String) : Change := fun origin entries =>
  match entries.lookup key with
  | none => some (origin, entries ++ [(key, .table .header [])])
  | some (.table .implied es) => some (origin, replaceEntry key (.table .header es) entries)
  | some _ => none

def openElement (key : String) : Change := fun origin entries =>
  match entries.lookup key with
  | none => some (origin, entries ++ [(key, .tables [[]])])
  | some (.tables elements) => some (origin, replaceEntry key (.tables (elements ++ [[]])) entries)
  | some _ => none

/-- A header at a path of one key or more, for a table or an element. -/
def openAt (element : Bool) (path : List String) : Change :=
  match path.getLast? with
  | none => fun _ _ => none
  | some key => changeAt .implied (if element then openElement key else openTable key) path.dropLast

end ApiContracts.Toml

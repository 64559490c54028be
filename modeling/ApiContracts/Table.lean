/-!
# Tables

A table maps text keys to values and lists them in increasing order of the keys, compared by code point. `insertEntry` and `lookup` work on plain lists of entries, so that a type can hold such a list of itself; `Table` keeps the order as a proof.
-/

namespace ApiContracts

/-- Entries with `key` mapped to `value`, in place of what it was mapped to. -/
def insertEntry {α : Type} (key : String) (value : α) : List (String × α) → List (String × α)
  | [] => [(key, value)]
  | (k, v) :: rest =>
    if key < k then (key, value) :: (k, v) :: rest
    else if key = k then (key, value) :: rest
    else (k, v) :: insertEntry key value rest

/-- The entries in order of their keys; of entries with one key the last is kept. -/
def sortEntries {α : Type} (entries : List (String × α)) : List (String × α) :=
  entries.foldl (fun sorted e => insertEntry e.1 e.2 sorted) []

theorem mem_keys_insertEntry {α : Type} {key : String} {value : α} {entries : List (String × α)} {k : String} :
    k ∈ (insertEntry key value entries).map (·.1) ↔ k = key ∨ k ∈ entries.map (·.1) := by
  induction entries with
  | nil => simp [insertEntry]
  | cons e rest ih =>
    simp only [insertEntry]
    split
    · simp
    · split
      · next h => subst h; simp
      · simp only [List.map_cons, List.mem_cons, ih]
        exact or_left_comm

theorem insertEntry_sorted {α : Type} {key : String} {value : α} {entries : List (String × α)}
    (h : (entries.map (·.1)).Pairwise (· < ·)) : ((insertEntry key value entries).map (·.1)).Pairwise (· < ·) := by
  induction entries with
  | nil => simp [insertEntry]
  | cons e rest ih =>
    simp only [List.map_cons, List.pairwise_cons] at h
    simp only [insertEntry]
    split
    · next hlt =>
      simp only [List.map_cons, List.pairwise_cons, List.mem_cons]
      exact ⟨fun k hk => hk.elim (· ▸ hlt) fun hk => String.lt_trans hlt (h.1 k hk), h⟩
    · split
      · next heq => subst heq; simpa only [List.map_cons, List.pairwise_cons] using h
      · next hlt hne =>
        simp only [List.map_cons, List.pairwise_cons]
        refine ⟨fun k hk => ?_, ih h.2⟩
        rcases mem_keys_insertEntry.1 hk with rfl | hk
        · exact Std.lt_of_le_of_ne (String.not_lt.1 hlt) fun heq => hne heq.symm
        · exact h.1 k hk

/-- Text keys in increasing order, each with its value. -/
structure Table (α : Type) where
  entries : List (String × α)
  sorted : (entries.map (·.1)).Pairwise (· < ·)

namespace Table

variable {α : Type}

def empty : Table α := ⟨[], by simp⟩

instance : Inhabited (Table α) := ⟨empty⟩

def insert (t : Table α) (key : String) (value : α) : Table α :=
  ⟨insertEntry key value t.entries, insertEntry_sorted t.sorted⟩

def get? (t : Table α) (key : String) : Option α := t.entries.lookup key

def keys (t : Table α) : List String := t.entries.map (·.1)

def size (t : Table α) : Nat := t.entries.length

def isEmpty (t : Table α) : Bool := t.entries.isEmpty

/-- The table of a list of entries, in which the last entry of a key counts. -/
def ofList (entries : List (String × α)) : Table α := entries.foldl (fun t e => t.insert e.1 e.2) empty

end Table

end ApiContracts

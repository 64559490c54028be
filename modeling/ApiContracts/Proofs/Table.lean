import ApiContracts.Table
import Mathlib.Data.List.Nodup

/-!
# Look-up in entries and tables

What `lookup` finds in a list of entries, and what a table answers after an insertion. The keys of a
table stand in increasing order, so an entry of a table is what its key looks up.
-/

namespace ApiContracts

section Entries

variable {κ α : Type} [DecidableEq κ]

theorem lookup_cons_ite {k' : κ} {v : α} {l : List (κ × α)} {k : κ} :
    ((k', v) :: l).lookup k = if k = k' then some v else l.lookup k := by
  by_cases hk : k = k'
  · simp [hk]
  · rw [List.lookup_cons, beq_eq_false_iff_ne.2 hk, if_neg hk]

theorem lookup_cons_replaced {key : κ} {new old : α} {l : List (κ × α)} {k : κ} :
    ((key, new) :: l).lookup k = if k = key then some new else ((key, old) :: l).lookup k := by
  rw [lookup_cons_ite, lookup_cons_ite]
  split <;> rfl

/-- A change at one key alone is one still behind an entry of another key. -/
theorem lookup_cons_changed {key k' : κ} {v : α} {x : Option α} {l l' : List (κ × α)} {k : κ} (hne : k' ≠ key)
    (h : l'.lookup k = if k = key then x else l.lookup k) :
    ((k', v) :: l').lookup k = if k = key then x else ((k', v) :: l).lookup k := by
  rw [lookup_cons_ite, h, lookup_cons_ite]
  by_cases hk : k = k'
  · rw [if_pos hk, if_pos hk, if_neg (hk ▸ hne)]
  · rw [if_neg hk, if_neg hk]

theorem mem_of_lookup {l : List (κ × α)} {k : κ} {v : α} (h : l.lookup k = some v) :
    (k, v) ∈ l := by
  induction l with
  | nil => simp at h
  | cons e l ih =>
      obtain ⟨k', v'⟩ := e
      rw [lookup_cons_ite] at h
      split at h
      · next hk =>
          cases h
          simp [hk]
      · exact List.mem_cons_of_mem _ (ih h)

theorem lookup_of_mem {l : List (κ × α)} (hnodup : (l.map (·.1)).Nodup) {k : κ} {v : α}
    (h : (k, v) ∈ l) : l.lookup k = some v := by
  induction l with
  | nil => simp at h
  | cons e l ih =>
      obtain ⟨k', v'⟩ := e
      rw [List.map_cons, List.nodup_cons] at hnodup
      rw [lookup_cons_ite]
      rcases List.mem_cons.1 h with heq | h
      · cases heq
        simp
      · have hne : k ≠ k' := fun heq => hnodup.1 (heq ▸ List.mem_map_of_mem (f := (·.1)) h)
        rw [if_neg hne]
        exact ih hnodup.2 h

theorem lookup_of_perm {l m : List (κ × α)} (hperm : l.Perm m) (hnodup : (m.map (·.1)).Nodup) (k : κ) :
    l.lookup k = m.lookup k := by
  have hkeys : (l.map (·.1)).Nodup := (hperm.map _).nodup_iff.2 hnodup
  apply Option.ext
  intro v
  show l.lookup k = some v ↔ m.lookup k = some v
  refine ⟨?_, ?_⟩
  · intro h
    exact lookup_of_mem hnodup (hperm.mem_iff.1 (mem_of_lookup h))
  · intro h
    exact lookup_of_mem hkeys (hperm.mem_iff.2 (mem_of_lookup h))

theorem lookup_map_value {β : Type} {f : α → β} {l : List (κ × α)} {k : κ} :
    (l.map fun e => (e.1, f e.2)).lookup k = (l.lookup k).map f := by
  induction l with
  | nil => rfl
  | cons e l ih =>
      rw [List.map_cons, lookup_cons_ite, lookup_cons_ite, ih]
      split <;> rfl

theorem find?_key_iff {β : Type} {key : β → κ} {l : List β} (hkeys : (l.map key).Nodup) {k : κ} {x : β} :
    l.find? (fun y => key y == k) = some x ↔ x ∈ l ∧ key x = k := by
  constructor
  · intro hfind
    exact ⟨List.mem_of_find?_eq_some hfind, by simpa using List.find?_some hfind⟩
  · rintro ⟨hx, rfl⟩
    have hsome : (l.find? fun y => key y == key x).isSome := by
      rw [List.find?_isSome]
      exact ⟨x, hx, by simp⟩
    obtain ⟨y, hy⟩ := Option.isSome_iff_exists.1 hsome
    have hkey : key y = key x := by simpa using List.find?_some hy
    rw [hy, List.inj_on_of_nodup_map hkeys (List.mem_of_find?_eq_some hy) hx hkey]

end Entries

theorem lookup_insertEntry {α : Type} {key : String} {value : α} {entries : List (String × α)}
    {k : String} : (insertEntry key value entries).lookup k
      = if k = key then some value else entries.lookup k := by
  induction entries with
  | nil => simp [insertEntry, lookup_cons_ite]
  | cons e rest ih =>
      obtain ⟨k', v⟩ := e
      rw [insertEntry]
      split
      · rw [lookup_cons_ite]
      · split
        · next heq =>
            rw [← heq]
            exact lookup_cons_replaced
        · next hne => exact lookup_cons_changed (Ne.symm hne) ih

theorem perm_insertEntry {α : Type} {key : String} {value : α} {entries : List (String × α)}
    (h : key ∉ entries.map (·.1)) : (insertEntry key value entries).Perm ((key, value) :: entries) := by
  induction entries with
  | nil => exact List.Perm.refl _
  | cons e rest ih =>
      rw [List.map_cons, List.mem_cons, not_or] at h
      rw [insertEntry]
      split
      · exact List.Perm.refl _
      · rw [if_neg h.1]
        exact ((ih h.2).cons e).trans (List.Perm.swap _ _ _)

/-- Sorting entries with different keys only changes their order. -/
theorem perm_sortEntries {α : Type} {entries : List (String × α)} (h : (entries.map (·.1)).Nodup) :
    (sortEntries entries).Perm entries := by
  have hfold : ∀ sorted : List (String × α), ((entries ++ sorted).map (·.1)).Nodup →
      (entries.foldl (fun sorted e => insertEntry e.1 e.2 sorted) sorted).Perm (entries ++ sorted) := by
    clear h
    induction entries with
    | nil => exact fun sorted _ => List.Perm.refl _
    | cons e entries ih =>
        intro sorted hnodup
        rw [List.cons_append, List.map_cons, List.nodup_cons, List.map_append, List.mem_append, not_or] at hnodup
        have hinsert : (entries ++ insertEntry e.1 e.2 sorted).Perm (e :: (entries ++ sorted)) :=
          ((perm_insertEntry hnodup.1.2).append_left entries).trans List.perm_middle
        refine (ih _ ?_).trans hinsert
        rw [(hinsert.map _).nodup_iff, List.map_cons, List.nodup_cons, List.map_append, List.mem_append, not_or]
        exact hnodup
  have hnil := hfold [] (by rwa [List.append_nil])
  rwa [List.append_nil] at hnil

namespace Table

variable {α : Type}

@[simp] theorem get?_empty {k : String} : (empty : Table α).get? k = none := by
  rfl

@[simp] theorem get?_insert {t : Table α} {key : String} {value : α} {k : String} :
    (t.insert key value).get? k = if k = key then some value else t.get? k := by
  exact lookup_insertEntry

theorem nodup_keys (t : Table α) : (t.entries.map (·.1)).Nodup := by
  rw [List.Nodup]
  refine t.sorted.imp ?_
  rintro k _ hlt rfl
  exact String.lt_irrefl k hlt

theorem mem_entries_iff {t : Table α} {k : String} {v : α} :
    (k, v) ∈ t.entries ↔ t.get? k = some v := by
  exact ⟨lookup_of_mem t.nodup_keys, mem_of_lookup⟩

theorem mem_keys_iff {t : Table α} {k : String} :
    k ∈ t.entries.map (·.1) ↔ (t.get? k).isSome := by
  constructor
  · intro hk
    obtain ⟨⟨k', v⟩, hmem, rfl⟩ := List.mem_map.1 hk
    rw [mem_entries_iff.1 hmem]
    rfl
  · intro hk
    obtain ⟨v, hv⟩ := Option.isSome_iff_exists.1 hk
    exact List.mem_map_of_mem (f := (·.1)) (mem_entries_iff.2 hv)

theorem eq_of_entries {t u : Table α} (h : t.entries = u.entries) : t = u := by
  cases t
  cases u
  simp_all

/-- A table is what its keys look up. -/
theorem ext_get? {t u : Table α} (h : ∀ k, t.get? k = u.get? k) : t = u := by
  have hmem : ∀ e, e ∈ t.entries ↔ e ∈ u.entries := by
    rintro ⟨k, v⟩
    rw [mem_entries_iff, mem_entries_iff, h]
  have hperm : t.entries.Perm u.entries :=
    (List.perm_ext_iff_of_nodup t.nodup_keys.of_map u.nodup_keys.of_map).2 hmem
  have heq : t.entries = u.entries := by
    refine hperm.eq_of_pairwise ?_ (List.pairwise_map.1 t.sorted) (List.pairwise_map.1 u.sorted)
    intro a b _ _ hab hba
    exact absurd hba (String.lt_asymm hab)
  exact eq_of_entries heq

end Table

end ApiContracts

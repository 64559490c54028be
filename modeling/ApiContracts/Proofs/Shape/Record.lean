import ApiContracts.Proofs.Except
import ApiContracts.Proofs.Table
import ApiContracts.Shape.Basic
import Mathlib.Data.List.Nodup

/-!
# When a value has a shape

What it takes for a reading to succeed, shape by shape, without saying what it answers. A list is read
exactly when its items are. An open record is read from the members of an object exactly when every
field is: from the member of its key, or as a missing one.
-/

namespace ApiContracts

open Json

theorem isOk_decodeItems {decls : Declarations} {item : Shape} {items : List Value} :
    (decodeItems decls item items).isOk = true
      ↔ ∀ v ∈ items, (item.decode decls v).isOk = true := by
  induction items with
  | nil => simp [decodeItems]
  | cons v rest ih =>
      rw [decodeItems, isOk_bind, List.forall_mem_cons, ← ih, isOk_iff, isOk_iff]
      simp only [isOk_bind, isOk_pure, and_true, exists_and_right]

theorem isOk_decode_list {decls : Declarations} {item : Shape} {v : Value} :
    (Shape.decode decls (.list item) v).isOk = true
      ↔ ∃ items, v = .arr items ∧ ∀ x ∈ items, (item.decode decls x).isOk = true := by
  cases v with
  | arr items => simp [Shape.decode, isOk_decodeItems]
  | _ => simp [Shape.decode]

theorem isOk_decode_optional {decls : Declarations} {item : Shape} {v : Value} :
    (Shape.decode decls (.optional item) v).isOk = true
      ↔ v = .null ∨ (item.decode decls v).isOk = true := by
  cases v <;> simp [Shape.decode]

/-! ### Records -/

/-- An open record passes over members that are no fields. -/
theorem isOk_decodeMembers {decls : Declarations} {r : RecordShape} (hopen : r.closed = false)
    {members : List (String × Value)} :
    (decodeMembers decls r members).isOk = true
      ↔ ∀ e ∈ members, ∀ f, r.fields.find? (·.key == e.1) = some f →
          (f.shape.decode decls e.2).isOk = true := by
  induction members with
  | nil => simp [decodeMembers]
  | cons e rest ih =>
      obtain ⟨key, value⟩ := e
      rw [List.forall_mem_cons, ← ih]
      cases hf : r.fields.find? (·.key == key) with
      | none => simp [decodeMembers, hf, hopen]
      | some f =>
          simp only [decodeMembers, hf, Option.some.injEq, forall_eq']
          rw [isOk_bind, isOk_iff, isOk_iff]
          simp only [isOk_bind, isOk_pure, and_true, exists_and_right]

theorem isSome_lookup_decodeMembers {decls : Declarations} {r : RecordShape}
    (hopen : r.closed = false) {members found : List (String × Value)}
    (h : decodeMembers decls r members = .ok found) {f : FieldShape} (hf : f ∈ r.fields) :
    (found.lookup f.key).isSome ↔ f.key ∈ members.map (·.1) := by
  induction members generalizing found with
  | nil =>
      simp only [decodeMembers, Except.ok.injEq] at h
      simp [← h]
  | cons e rest ih =>
      obtain ⟨key, value⟩ := e
      rw [decodeMembers] at h
      cases hfind : r.fields.find? (·.key == key) with
      | none =>
          have hne : f.key ≠ key := by
            intro heq
            have hno := List.find?_eq_none.1 hfind f hf
            simp [heq] at hno
          rw [hfind] at h
          simp only [hopen, Bool.false_eq_true, if_false] at h
          simp [ih h, hne]
      | some f' =>
          rw [hfind] at h
          obtain ⟨v, hv, h⟩ := bind_eq_ok.1 h
          obtain ⟨others, hothers, h⟩ := bind_eq_ok.1 h
          cases h
          rw [lookup_cons_ite, List.map_cons, List.mem_cons, ← ih hothers]
          split
          · next heq => simp [heq]
          · next hne => simp [hne]

theorem isOk_assembleFields {found : List (String × Value)} {fields : List FieldShape} :
    (assembleFields found fields).isOk = true
      ↔ ∀ f ∈ fields, (found.lookup f.key).isSome ∨ f.missing.isOk = true := by
  induction fields with
  | nil => simp [assembleFields]
  | cons f rest ih =>
      rw [List.forall_mem_cons, ← ih, assembleFields]
      cases hlookup : found.lookup f.key with
      | some v =>
          change (assembleFields found rest >>= fun others => pure ((f.key, v) :: others)).isOk
            = true ↔ _
          simp only [isOk_bind, isOk_pure, and_true, ← isOk_iff, Option.isSome_some, true_or,
            true_and]
      | none =>
          rw [isOk_bind, isOk_iff, isOk_iff]
          simp only [isOk_bind, isOk_pure, and_true, exists_and_right]
          simp

theorem isOk_decodeRecord {decls : Declarations} {r : RecordShape} (hopen : r.closed = false)
    (hkeys : (r.fields.map (·.key)).Nodup) {t : Table Value} :
    (decodeRecord decls r (.obj t.entries)).isOk = true
      ↔ ∀ f ∈ r.fields, ((t.get? f.key).elim f.missing (f.shape.decode decls)).isOk = true := by
  rw [decodeRecord, isOk_bind]
  simp only [isOk_bind, isOk_pure, and_true]
  simp only [← isOk_iff]
  constructor
  · rintro ⟨found, hfound, hassemble⟩ f hf
    have hmembers := (isOk_decodeMembers hopen).1 (isOk_iff.2 ⟨found, hfound⟩)
    cases hget : t.get? f.key with
    | some v =>
        have hfind : r.fields.find? (·.key == f.key) = some f := (find?_key_iff hkeys).2 ⟨hf, rfl⟩
        exact hmembers _ (Table.mem_entries_iff.2 hget) f hfind
    | none =>
        have hlookup : ¬ (found.lookup f.key).isSome := by
          rw [isSome_lookup_decodeMembers hopen hfound hf, Table.mem_keys_iff, hget]
          simp
        exact ((isOk_assembleFields.1 hassemble) f hf).resolve_left hlookup
  · intro hfields
    have hmembers : (decodeMembers decls r t.entries).isOk = true := by
      rw [isOk_decodeMembers hopen]
      rintro ⟨key, v⟩ hmem f hf
      have hkey : f.key = key := by simpa using List.find?_some hf
      have hget : t.get? f.key = some v := hkey ▸ Table.mem_entries_iff.1 hmem
      simpa [hget] using hfields f (List.mem_of_find?_eq_some hf)
    obtain ⟨found, hfound⟩ := isOk_iff.1 hmembers
    refine ⟨found, hfound, isOk_assembleFields.2 ?_⟩
    intro f hf
    rw [isSome_lookup_decodeMembers hopen hfound hf, Table.mem_keys_iff]
    cases hget : t.get? f.key with
    | some v => exact Or.inl rfl
    | none => exact Or.inr (by simpa [hget] using hfields f hf)

end ApiContracts

import ApiContracts.Proofs.Table
import ApiContracts.Rules.Validate
import Mathlib.Data.List.Nodup

/-!
# What a valid request satisfies

Validation tells violations as texts. What it takes for there to be none does not depend on the texts, and
is said here level by level: for a value and its check, for what a section holds and its rule, for a
section, and for the contract that is gathered from all of them.
-/

namespace ApiContracts

open Json

/-- An object of the type, or an array of such values. -/
inductive NamedType.Conforms (t : NamedType) : Value → Prop where
  | object {members : List (String × Value)} (h : t.accepts (.obj members) = true) :
      t.Conforms (.obj members)
  | array {items : List Value} (h : ∀ v ∈ items, t.Conforms v) : t.Conforms (.arr items)

/-- What a check asks of a value. -/
def Check.Holds (check : Check NamedType) (v : Value) : Prop :=
  match check with
  | .any => True
  | .string => ∃ s, v = .str s
  | .number => (∃ n, v = .int n) ∨ ∃ x, v = .double x
  | .integer => ∃ n, v = .int n
  | .boolean => ∃ b, v = .bool b
  | .enum t => t.accepts v = true
  | .nested t => t.Conforms v

/-- What a rule asks of what a section holds for its key. -/
def FieldRule.Holds (r : FieldRule NamedType) (given : Option Value) : Prop :=
  match given.filter (!·.isNull) with
  | none => r.required = false
  | some v => if r.array then ∃ items, v = .arr items ∧ ∀ x ∈ items, r.check.Holds x else r.check.Holds v

def SectionRules.Holds (s : SectionRules NamedType) (req : Request) : Prop :=
  ∀ r ∈ s.rules, r.Holds ((s.decode req).get? r.key)

/-! ### One value -/

theorem plainViolation_eq_none {wanted : String} {fits : Bool} {key start : String} :
    plainViolation wanted fits key start = none ↔ fits = true := by
  simp [plainViolation]

mutual

theorem nestedViolation_eq_none {t : NamedType} {key : String} {v : Value} :
    nestedViolation t key v = none ↔ t.Conforms v := by
  match v with
  | .obj members =>
      have hdecode : nestedViolation t key (.obj members) = none
          ↔ t.accepts (.obj members) = true := by
        rw [nestedViolation, NamedType.accepts]
        cases t.decode (.obj members) <;> simp [Except.isOk, Except.toBool]
      rw [hdecode]
      constructor
      · exact .object
      · rintro ⟨h⟩
        exact h
  | .arr items =>
      have hitems : nestedViolation t key (.arr items) = none
          ↔ nestedViolations t key items = [] := by
        simp [nestedViolation]
      rw [hitems, nestedViolations_eq_nil]
      constructor
      · exact .array
      · rintro (_ | h)
        exact h
  | .null | .bool _ | .int _ | .double _ | .str _ =>
      constructor
      · intro h
        simp [nestedViolation] at h
      · rintro ⟨⟩

theorem nestedViolations_eq_nil {t : NamedType} {key : String} {items : List Value} :
    nestedViolations t key items = [] ↔ ∀ v ∈ items, t.Conforms v := by
  match items with
  | [] => simp [nestedViolations]
  | v :: rest =>
      rw [nestedViolations, List.append_eq_nil_iff, Option.toList_eq_nil_iff,
        nestedViolation_eq_none, nestedViolations_eq_nil, List.forall_mem_cons]

end

theorem Check.violation_eq_none {check : Check NamedType} {key start : String} {v : Value} :
    check.violation key start v = none ↔ check.Holds v := by
  cases check with
  | any => simp [violation, Holds]
  | enum t => exact plainViolation_eq_none
  | nested t => exact nestedViolation_eq_none
  | _ => cases v <;> simp [violation, Holds, plainViolation]

/-! ### One rule -/

theorem filter_not_isNull {v : Value} (hv : v.isNull = false) : (some v).filter (!·.isNull) = some v := by
  rw [Option.filter_some, if_pos (by simp [hv])]

@[simp] theorem FieldRule.holds_none {r : FieldRule NamedType} :
    r.Holds none ↔ r.required = false := by
  rfl

@[simp] theorem FieldRule.holds_null {r : FieldRule NamedType} :
    r.Holds (some .null) ↔ r.required = false := by
  rfl

theorem FieldRule.holds_some {r : FieldRule NamedType} {v : Value} (hv : v.isNull = false) :
    r.Holds (some v)
      ↔ if r.array then ∃ items, v = .arr items ∧ ∀ x ∈ items, r.check.Holds x
        else r.check.Holds v := by
  rw [Holds, filter_not_isNull hv]

theorem FieldRule.violations_eq_nil {r : FieldRule NamedType} {given : Option Value} :
    r.violations given = [] ↔ r.Holds given := by
  unfold violations Holds
  cases given.filter (!·.isNull) with
  | none => cases r.required <;> simp
  | some v =>
      cases harray : r.array with
      | false => simp [Check.violation_eq_none]
      | true =>
          cases v with
          | arr items => simp [List.filterMap_eq_nil_iff, Check.violation_eq_none]
          | _ => simp

/-! ### Sections and the contract -/

namespace SectionRules

theorem violations_eq_nil {s : SectionRules NamedType} {req : Request} :
    s.violations (s.decode req) = [] ↔ s.Holds req := by
  simp only [violations, List.flatMap_eq_nil_iff, FieldRule.violations_eq_nil, Holds]

theorem decodeValid_eq_ok {s : SectionRules NamedType} {req : Request} {decoded : Table Value} :
    s.decodeValid req = .ok decoded ↔ s.Holds req ∧ decoded = s.decode req := by
  rw [← violations_eq_nil, decodeValid, validate]
  cases s.violations (s.decode req) with
  | nil => simp [Except.map, eq_comm]
  | cons first rest => simp [Except.map]

end SectionRules

/-- The decoded sections of a request by their names, added to those in `done`. -/
def gathered (done : Table Value) (sections : List (SectionRules NamedType)) (req : Request) :
    Table Value :=
  sections.foldl (fun t s => t.insert s.part.name (.obj (s.decode req).entries)) done

theorem contractOf_eq_ok {sections : List (SectionRules NamedType)} {req : Request}
    {done t : Table Value} :
    contractOf done sections req = .ok t
      ↔ (∀ s ∈ sections, s.Holds req) ∧ t = gathered done sections req := by
  induction sections generalizing done with
  | nil => simp [contractOf, gathered, eq_comm]
  | cons s rest ih =>
      rw [contractOf, List.forall_mem_cons]
      cases hvalid : s.decodeValid req with
      | error e =>
          have hfails : ¬ s.Holds req := by
            intro h
            rw [SectionRules.decodeValid_eq_ok.2 ⟨h, rfl⟩] at hvalid
            cases hvalid
          simp [hfails]
      | ok decoded =>
          obtain ⟨hholds, rfl⟩ := SectionRules.decodeValid_eq_ok.1 hvalid
          simp only [ih, hholds, true_and]
          rfl

theorem decodeAndValidate_eq_ok {sections : List (SectionRules NamedType)} {req : Request}
    {v : Value} :
    decodeAndValidate sections req = .ok v
      ↔ (∀ s ∈ sections, s.Holds req) ∧ v = .obj (gathered .empty sections req).entries := by
  constructor
  · intro h
    cases hcontract : contractOf .empty sections req with
    | error e => simp [decodeAndValidate, hcontract, Except.map] at h
    | ok t =>
        obtain ⟨hholds, rfl⟩ := contractOf_eq_ok.1 hcontract
        simp only [decodeAndValidate, hcontract, Except.map, Except.ok.injEq] at h
        exact ⟨hholds, h.symm⟩
  · rintro ⟨hholds, rfl⟩
    rw [decodeAndValidate, contractOf_eq_ok.2 ⟨hholds, rfl⟩]
    rfl

theorem Section.name_injective : Function.Injective Section.name := by
  intro a b h
  cases a <;> cases b <;> first | rfl | simp [Section.name] at h

theorem get?_gathered {sections : List (SectionRules NamedType)}
    (hparts : (sections.map (·.part)).Nodup) {req : Request} {done : Table Value}
    {s : SectionRules NamedType} (hs : s ∈ sections) :
    (gathered done sections req).get? s.part.name = some (.obj (s.decode req).entries) := by
  have hkeep : ∀ (rest : List (SectionRules NamedType)) (t : Table Value),
      s.part ∉ rest.map (·.part) →
        (gathered t rest req).get? s.part.name = t.get? s.part.name := by
    intro rest
    induction rest with
    | nil => exact fun _ _ => rfl
    | cons s' rest ih =>
        intro t hnot
        rw [List.map_cons, List.mem_cons, not_or] at hnot
        have hname : s.part.name ≠ s'.part.name := fun h => hnot.1 (Section.name_injective h)
        change (gathered (t.insert _ _) rest req).get? _ = _
        rw [ih _ hnot.2, Table.get?_insert, if_neg hname]
  induction sections generalizing done with
  | nil => simp at hs
  | cons s' rest ih =>
      rw [List.map_cons, List.nodup_cons] at hparts
      change (gathered (done.insert _ _) rest req).get? _ = _
      rcases List.mem_cons.1 hs with rfl | hs
      · rw [hkeep rest _ hparts.1, Table.get?_insert, if_pos rfl]
      · exact ih hparts.2 hs

end ApiContracts

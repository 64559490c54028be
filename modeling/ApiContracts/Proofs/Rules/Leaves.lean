import ApiContracts.Proofs.Rules.Outcome

/-!
# Nested checks, leaf by leaf

A nested check goes into arrays as deep as they are, and on every level joins what it is told of the items into
one text. What comes out does not show the levels: it is the texts of the leaves that are rejected, joined from
left to right. The reason is that a join of joins is one join. Items of which nothing is told must leave no trace
for that, so they have no text at all, rather than an empty one.
-/

namespace ApiContracts

open Json

/-! ### Joining -/

/-- Texts as one text, if there are any. -/
def joined (texts : List String) : Option String := if texts = [] then none else some (", ".intercalate texts)

theorem joined_eq_none {texts : List String} : joined texts = none ↔ texts = [] := by
  simp [joined]

theorem joined_toList (text : Option String) : joined text.toList = text := by
  cases text with
  | none => rfl
  | some m => simp [joined]

/-- Groups of texts that are joined one by one, and then with each other, are joined all at once. -/
theorem joined_filterMap (groups : List (List String)) : joined (groups.filterMap joined) = joined groups.flatten := by
  induction groups with
  | nil => rfl
  | cons group rest ih =>
      rw [List.flatten_cons]
      by_cases hgroup : group = []
      · subst hgroup
        have hnone : joined [] = none := by rfl
        rw [List.filterMap_cons_none hnone, ih, List.nil_append]
      · have hsome : joined group = some (", ".intercalate group) := if_neg hgroup
        rw [List.filterMap_cons_some hsome]
        by_cases hrest : rest.filterMap joined = []
        · have hflat : rest.flatten = [] := by rw [← joined_eq_none, ← ih, joined_eq_none, hrest]
          rw [hrest, hflat, List.append_nil, hsome]
          rfl
        · have hflat : rest.flatten ≠ [] := by rwa [ne_eq, ← joined_eq_none, ← ih, joined_eq_none]
          have hjoin : ", ".intercalate (rest.filterMap joined) = ", ".intercalate rest.flatten := by
            rwa [joined, joined, if_neg hrest, if_neg hflat, Option.some.injEq] at ih
          rw [joined, if_neg (List.cons_ne_nil _ _), String.intercalate_cons_of_ne_nil hrest, hjoin, joined,
            if_neg (by simp [hgroup]), String.intercalate_append_of_ne_nil hgroup hflat]

/-! ### Leaves -/

/-- Whether a value is reached from another one by going into arrays, however deep, and is no array itself. -/
inductive Leaf : Value → Value → Prop where
  | here {v : Value} (hv : ∀ items, v ≠ .arr items) : Leaf v v
  | inside {items : List Value} {item leaf : Value} (hitem : item ∈ items) (h : Leaf leaf item) : Leaf leaf (.arr items)

namespace Json.Value

mutual

def leaves : Value → List Value
  | .arr items => leavesOf items
  | v => [v]

def leavesOf : List Value → List Value
  | [] => []
  | v :: rest => leaves v ++ leavesOf rest

end

theorem leaves_of_not_arr {v : Value} (hv : ∀ items, v ≠ .arr items) : v.leaves = [v] := by
  cases v with
  | arr items => exact absurd rfl (hv items)
  | _ => rfl

theorem leavesOf_eq_flatMap (items : List Value) : leavesOf items = items.flatMap leaves := by
  induction items with
  | nil => rfl
  | cons v rest ih => rw [leavesOf, ih, List.flatMap_cons]

mutual

theorem mem_leaves {leaf v : Value} : leaf ∈ v.leaves ↔ Leaf leaf v := by
  match v with
  | .arr items =>
      rw [leaves, mem_leavesOf]
      constructor
      · rintro ⟨item, hitem, h⟩
        exact .inside hitem h
      · rintro (hv | ⟨hitem, h⟩)
        · exact absurd rfl (hv items)
        · exact ⟨_, hitem, h⟩
  | .null | .bool _ | .int _ | .double _ | .str _ | .obj _ =>
      rw [leaves_of_not_arr (by simp), List.mem_singleton]
      constructor
      · rintro rfl
        exact .here (by simp)
      · rintro ⟨-⟩
        rfl

theorem mem_leavesOf {leaf : Value} {items : List Value} :
    leaf ∈ leavesOf items ↔ ∃ item ∈ items, Leaf leaf item := by
  match items with
  | [] => simp [leavesOf]
  | v :: rest =>
      rw [leavesOf, List.mem_append, mem_leaves, mem_leavesOf]
      simp

end

end Json.Value

/-! ### What is told -/

def Json.Value.isObject : Value → Bool
  | .obj _ => true
  | _ => false

namespace NamedType

variable {t : NamedType} {key : String} {v : Value}

/-- What a nested check says of a leaf: of an object why it does not fit the type, and of anything else that it is
no object. -/
def complaint (t : NamedType) (key : String) : Value → Option String
  | .obj members =>
    match t.decode (.obj members) with
    | .ok _ => none
    | .error e => some s!"{key}: {e.message}"
  | _ => some s!"nested property {key} must be either object or array"

theorem complaint_eq_none :
    t.complaint key v = none ↔ v.isObject = true ∧ t.accepts v = true := by
  cases v with
  | obj members =>
      rw [complaint, accepts]
      cases t.decode (.obj members) <;> simp [Value.isObject, Except.isOk, Except.toBool]
  | _ => simp [complaint, Value.isObject]

def complaints (t : NamedType) (key : String) (v : Value) : List String := v.leaves.filterMap (t.complaint key)

theorem complaints_of_not_arr (hv : ∀ items, v ≠ .arr items) :
    t.complaints key v = (t.complaint key v).toList := by
  rw [complaints, Value.leaves_of_not_arr hv, List.filterMap_eq_flatMap_toList, List.flatMap_singleton]

theorem complaints_arr {items : List Value} :
    t.complaints key (.arr items) = (items.map (t.complaints key)).flatten := by
  rw [complaints, Value.leaves, Value.leavesOf_eq_flatMap, List.filterMap_flatMap, ← List.flatMap_def]
  rfl

end NamedType

mutual

theorem nestedViolation_eq {t : NamedType} {key : String} {v : Value} :
    nestedViolation t key v = joined (t.complaints key v) := by
  match v with
  | .arr items =>
      have harr : nestedViolation t key (.arr items) = joined (nestedViolations t key items) := by
        simp only [nestedViolation, joined, List.isEmpty_iff]
      rw [harr, nestedViolations_eq, joined_filterMap, NamedType.complaints_arr]
  | .null | .bool _ | .int _ | .double _ | .str _ | .obj _ =>
      rw [NamedType.complaints_of_not_arr (by simp), joined_toList]
      rfl

theorem nestedViolations_eq {t : NamedType} {key : String} {items : List Value} :
    nestedViolations t key items = (items.map (t.complaints key)).filterMap joined := by
  match items with
  | [] => rfl
  | v :: rest =>
      rw [nestedViolations, nestedViolation_eq, nestedViolations_eq, List.map_cons, List.filterMap_cons]
      cases joined (t.complaints key v) <;> rfl

end

/-- A nested check passes a value exactly if every leaf of it is an object of the type. Otherwise it tells, in
whatever words the text was to start, the complaints about the leaves that are none, from left to right with commas
between them, no matter in how many arrays a leaf stands. -/
theorem nested_told_leaf_by_leaf (t : NamedType) (key start : String) (v : Value) :
    let told := (Check.nested t).violation key start v
    let complaints := v.leaves.filterMap (t.complaint key)
    (∀ leaf, leaf ∈ v.leaves ↔ Leaf leaf v)
      ∧ (∀ leaf, t.complaint key leaf = none ↔ leaf.isObject = true ∧ t.accepts leaf = true)
      ∧ (told = none ↔ ∀ leaf, Leaf leaf v → leaf.isObject = true ∧ t.accepts leaf = true)
      ∧ (told ≠ none → told = some (", ".intercalate complaints)) := by
  intro told complaints
  have htold : told = joined complaints := nestedViolation_eq
  refine ⟨fun leaf => Value.mem_leaves, fun leaf => NamedType.complaint_eq_none, ?_, ?_⟩
  · rw [htold, joined_eq_none, List.filterMap_eq_nil_iff]
    exact forall_congr' fun leaf => imp_congr Value.mem_leaves NamedType.complaint_eq_none
  · intro hne
    rw [htold, ne_eq, joined_eq_none] at hne
    rw [htold, joined, if_neg hne]

end ApiContracts

import ApiContracts.Proofs.Rules.Outcome
import ApiContracts.Sample.UserApi
import Mathlib

/-!
# Violations of the elements of a list

A rule for a list tells of each element what the rule for one value would tell of it, in the order of the elements.
Words in front of a text say that it is about an element, but only a plain check puts them there. The texts of a
nested check have none, whether an element is no object, does not fit its type, or is a list of such values.
-/

namespace ApiContracts

open Json

theorem plainViolation_start (wanted : String) (fits : Bool) (key start : String) :
    plainViolation wanted fits key start = (plainViolation wanted fits key "").map (start ++ ·) := by
  cases fits with
  | true => rfl
  | false =>
      have hfront : toString "" ++ toString key = key := String.empty_append
      simp only [plainViolation, Bool.false_eq_true, if_false, Option.map_some, Option.some.injEq, hfront]
      simp only [toString, String.append_assoc]

namespace Check

/-- The words in front of what is told of an element; a nested check has none. -/
def lead : Check NamedType → String
  | nested _ => ""
  | _ => "each value in "

theorem lead_of_not_nested {check : Check NamedType} (h : ∀ t, check ≠ .nested t) : check.lead = "each value in " := by
  cases check with
  | nested t => exact absurd rfl (h t)
  | _ => rfl

theorem violation_element (check : Check NamedType) (key : String) (v : Value) :
    check.violation key "each value in " v = (check.violation key "" v).map (check.lead ++ ·) := by
  cases check with
  | any => rfl
  | nested t => simp [violation, lead]
  | _ => exact plainViolation_start ..

theorem map_lead_eq_iff {check : Check NamedType} {texts : List String} :
    texts.map (check.lead ++ ·) = texts.map ("each value in " ++ ·) ↔ (∀ t, check ≠ .nested t) ∨ texts = [] := by
  by_cases hnested : ∃ t, check = .nested t
  · obtain ⟨t, rfl⟩ := hnested
    have hlonger (m : String) : "" ++ m ≠ "each value in " ++ m := by
      intro heq
      have hlength := congrArg String.length heq
      have hwords : "each value in ".length = 14 := by decide
      rw [String.empty_append, String.length_append, hwords] at hlength
      omega
    constructor
    · intro heq
      right
      rw [List.eq_nil_iff_forall_not_mem]
      exact fun m hm => hlonger m (List.map_inj_left.1 heq m hm)
    · rintro (hplain | rfl)
      · exact absurd rfl (hplain t)
      · rfl
  · rw [not_exists] at hnested
    rw [lead_of_not_nested hnested]
    exact iff_of_true rfl (Or.inl hnested)

end Check

namespace FieldRule

variable {r : FieldRule NamedType} {v : Value}

def alone (r : FieldRule NamedType) : FieldRule NamedType := { r with array := false }

theorem violations_alone (hv : v.isNull = false) :
    r.alone.violations (some v) = (r.check.violation r.key "" v).toList := by
  rw [violations, filter_not_isNull hv]
  rfl

theorem violations_alone_eq_nil (hv : v.isNull = false) :
    r.alone.violations (some v) = [] ↔ r.check.Holds v := by
  rw [violations_alone hv, Option.toList_eq_nil_iff, Check.violation_eq_none]

theorem length_violations_alone (hv : v.isNull = false) :
    (r.alone.violations (some v)).length = if r.check.Holds v then 0 else 1 := by
  rw [length_violations, faults, filter_not_isNull hv]
  rfl

theorem violations_arr (harray : r.array = true) {items : List Value} (hitems : ∀ v ∈ items, v.isNull = false) :
    r.violations (some (.arr items))
      = items.flatMap fun v => (r.alone.violations (some v)).map (r.check.lead ++ ·) := by
  have hlist : r.violations (some (.arr items)) = items.filterMap (r.check.violation r.key "each value in ") := by
    show (if r.array then _ else _) = _
    rw [if_pos harray]
  rw [hlist, List.filterMap_eq_flatMap_toList]
  apply List.flatMap_congr
  intro v hv
  rw [violations_alone (hitems v hv), Check.violation_element, Option.toList_map]

end FieldRule

/-- Of a list without nulls a section tells, at the place of the rule, what the rule for one value tells of each
element, which is one text for every element that does not pass, behind the words that the check has for elements.
These are the words `each value in` throughout exactly if the check is plain or every element passes. -/
theorem element_violations_led_iff {r : FieldRule NamedType} (harray : r.array = true) {items : List Value}
    (hitems : ∀ v ∈ items, v.isNull = false) {part : Section} {before after : List (FieldRule NamedType)}
    {decoded : Table Value} (hheld : decoded.get? r.key = some (.arr items)) :
    let told := items.flatMap fun v => (r.alone.violations (some v)).map (r.check.lead ++ ·)
    (SectionRules.mk part (before ++ r :: after)).violations decoded
        = (SectionRules.mk part before).violations decoded ++ told ++ (SectionRules.mk part after).violations decoded
      ∧ (∀ v ∈ items, (r.alone.violations (some v)).length = if r.check.Holds v then 0 else 1)
      ∧ (told = (items.flatMap fun v => (r.alone.violations (some v)).map ("each value in " ++ ·))
          ↔ (∀ t, r.check ≠ .nested t) ∨ ∀ v ∈ items, r.check.Holds v) := by
  intro told
  refine ⟨?_, fun v hv => FieldRule.length_violations_alone (hitems v hv), ?_⟩
  · have hrule : r.violations (decoded.get? r.key) = told := by
      rw [hheld]
      exact FieldRule.violations_arr harray hitems
    simp only [SectionRules.violations, List.flatMap_append, List.flatMap_cons, hrule, List.append_assoc]
  · have hmap (start : String) : (items.flatMap fun v => (r.alone.violations (some v)).map (start ++ ·))
        = (items.flatMap fun v => r.alone.violations (some v)).map (start ++ ·) := List.map_flatMap.symm
    have hnone : (items.flatMap fun v => r.alone.violations (some v)) = [] ↔ ∀ v ∈ items, r.check.Holds v := by
      rw [List.flatMap_eq_nil_iff]
      exact forall₂_congr fun v hv => FieldRule.violations_alone_eq_nil (hitems v hv)
    unfold told
    rw [hmap, hmap, Check.map_lead_eq_iff, hnone]

section Sample

def profileType : NamedType := .ofShape Sample.UserApi.types "Profile"

def profilesRule : FieldRule NamedType := { key := "profiles", check := .nested profileType, array := true }

def flagsRule : FieldRule NamedType := { key := "flags", check := .boolean, array := true }

theorem alone_nameless : profilesRule.alone.violations (some (.obj [])) = ["profiles: missing field `bio`"] := by
  have hdecode : profileType.decode (.obj []) = .error (.missingField "bio") := by cbv
  rw [FieldRule.violations_alone rfl]
  show (nestedViolation profileType "profiles" (.obj [])).toList = _
  rw [nestedViolation, hdecode]
  rfl

def mixedProfiles : List Value := [.obj [], .obj [("bio", .str "a")], .int 3]

def mixedLists : Table Value :=
  ⟨[("flags", .arr [.str "on", .bool false]), ("profiles", .arr mixedProfiles)], by decide⟩

/-- The elements of a plain list and of a nested one. -/
theorem mixed_lists_violated :
    (∀ v ∈ mixedProfiles, v.isNull = false) ∧ mixedLists.get? "profiles" = some (.arr mixedProfiles)
      ∧ (SectionRules.mk .body [flagsRule, profilesRule]).violations mixedLists
        = ["each value in flags must be a boolean value", "profiles: missing field `bio`",
          "nested property profiles must be either object or array"] := by
  have hitems : ∀ v ∈ mixedProfiles, v.isNull = false := by decide
  have hheld : mixedLists.get? "profiles" = some (.arr mixedProfiles) := rfl
  have hfits : profilesRule.alone.violations (some (.obj [("bio", .str "a")])) = [] := by
    have hdecode : profileType.decode (.obj [("bio", .str "a")]) = .ok (.obj [("bio", .str "a")]) := by cbv
    rw [FieldRule.violations_alone rfl]
    show (nestedViolation profileType "profiles" _).toList = _
    rw [nestedViolation, hdecode]
    rfl
  have hnumber : profilesRule.alone.violations (some (.int 3))
      = ["nested property profiles must be either object or array"] := rfl
  obtain ⟨htold, -, -⟩ :=
    @element_violations_led_iff profilesRule rfl mixedProfiles hitems .body [flagsRule] [] mixedLists hheld
  refine ⟨hitems, hheld, ?_⟩
  rw [List.singleton_append] at htold
  rw [htold, mixedProfiles, List.flatMap_cons, List.flatMap_cons, List.flatMap_cons, alone_nameless, hfits, hnumber]
  rfl

/-- A nested element without its field is told of without the words. -/
theorem nested_element_told_bare :
    let decoded : Table Value := ⟨[("profiles", .arr [.obj []])], by decide⟩
    profilesRule.alone.violations (some (.obj [])) = ["profiles: missing field `bio`"]
      ∧ (SectionRules.mk .body [profilesRule]).violations decoded
        ≠ (profilesRule.alone.violations (some (.obj []))).map ("each value in " ++ ·) := by
  intro decoded
  have htold : (SectionRules.mk .body [profilesRule]).violations decoded = ["profiles: missing field `bio`"] := by
    show profilesRule.violations (some (.arr [.obj []])) ++ [] = _
    rw [FieldRule.violations_arr rfl (by decide), List.flatMap_singleton, alone_nameless]
    rfl
  refine ⟨alone_nameless, ?_⟩
  rw [alone_nameless, htold]
  decide

end Sample

end ApiContracts

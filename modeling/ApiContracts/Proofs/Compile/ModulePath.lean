import ApiContracts.Compile.ModulePath
import ApiContracts.Proofs.Compile.Name
import Mathlib.Data.List.Induction

/-!
# Where module paths lead

A path between modules is followed word by word: `super` goes up one module, any other word goes down to the
module of that name. Going up as often as there are modules below those shared leaves exactly these, and what is
behind them in the target leads to it. The words of the target are names of fields, so none of them is taken for
a word that leads elsewhere.
-/

namespace ApiContracts.Compile

open Text

/-- Where words lead from a module, by the modules on the way to each. There is nothing above the root. -/
def follow : (place words : List String) → Option (List String)
  | place, [] => some place
  | place, word :: rest =>
    if word = "super" then if place = [] then none else follow place.dropLast rest
    else follow (place ++ [word]) rest

theorem follow_up {place below rest : List String} :
    follow (place ++ below) (List.replicate below.length "super" ++ rest) = follow place rest := by
  induction below using List.reverseRecOn with
  | nil => rw [List.append_nil, List.length_nil, List.replicate_zero, List.nil_append]
  | append_singleton below name ih =>
      have hplace : place ++ (below ++ [name]) ≠ [] := by simp
      rw [List.length_append, List.length_singleton, List.replicate_succ, List.cons_append, follow, if_pos rfl,
        if_neg hplace, ← List.append_assoc, List.dropLast_concat, ih]

theorem follow_down {place names : List String} (h : "super" ∉ names) : follow place names = some (place ++ names) := by
  induction names generalizing place with
  | nil => rw [follow, List.append_nil]
  | cons name rest ih =>
      rw [List.mem_cons, not_or] at h
      rw [follow, if_neg (Ne.symm h.1), ih h.2, List.append_assoc, List.singleton_append]

theorem sharedLength_le (source target : List String) :
    sharedLength source target ≤ source.length ∧ sharedLength source target ≤ target.length := by
  fun_induction sharedLength source target with
  | case1 as b bs ih =>
      rw [List.length_cons, List.length_cons]
      omega
  | case2 => simp
  | case3 => simp

theorem take_sharedLength (source target : List String) :
    source.take (sharedLength source target) = target.take (sharedLength source target) := by
  fun_induction sharedLength source target with
  | case1 as b bs ih => rw [List.take_succ_cons, List.take_succ_cons, ih]
  | case2 => rfl
  | case3 => simp

theorem follow_shared {source target : List String} {shared : Nat} (h : "super" ∉ target)
    (hshared : shared ≤ sharedLength source target) :
    follow source (List.replicate (source.length - shared) "super" ++ target.drop shared) = some target := by
  have htake : source.take shared = target.take shared := by
    have hlonger := congrArg (List.take shared) (take_sharedLength source target)
    rwa [List.take_take, List.take_take, Nat.min_eq_left hshared] at hlonger
  have hdown : "super" ∉ target.drop shared := fun hmem => h (List.mem_of_mem_drop hmem)
  calc
    _ = follow (source.take shared ++ source.drop shared)
          (List.replicate (source.drop shared).length "super" ++ target.drop shared) := by
      rw [List.take_append_drop, List.length_drop]
    _ = some target := by
      rw [follow_up, follow_down hdown, htake, List.take_append_drop]

/-! ### The words of a path -/

structure NamesModule (word : String) : Prop where
  ne_empty : word ≠ ""
  no_colon : ':' ∉ word.toList
  not_keyword : word ∉ ["super", "self", "crate"]

theorem WrittenAs.namesModule {name text : String} (h : WrittenAs name text) (hname : IsIdentifier name) :
    NamesModule text := by
  refine ⟨?_, h.colon_not_mem hname, ?_⟩
  · cases h with
    | plain => exact hname.ne_empty
    | raw => simp
  · cases h with
    | plain hfree =>
        have hreserved : ∀ word ∈ ["super", "self", "crate"], word ∈ reservedWords := by decide +kernel
        exact fun hmem => hfree (hreserved _ hmem)
    | raw =>
        have hsign : ∀ word ∈ ["super", "self", "crate"], '#' ∉ word.toList := by decide
        exact fun hmem => hsign _ hmem (by simp [String.toList_append])

theorem namesModule_of_mem_components {path word : String} (h : word ∈ components path) : NamesModule word := by
  rw [components, List.mem_map] at h
  obtain ⟨step, -, rfl⟩ := h
  obtain ⟨name, hidentifier, hwritten, -⟩ := fieldName_written (String.ofList step)
  exact hwritten.namesModule hidentifier

/-- The path between two modules goes up, never above the root, and then down by names of modules, and it leads
from the one to the other. How far it goes up, and what is left of the way to the target, is told by a length that
neither way falls short of. -/
theorem relativePath_leads (source target : String) :
    let place := components source
    let goal := components target
    let shared := min (sharedLength place goal) (goal.length - 1)
    shared ≤ place.length ∧ shared ≤ goal.length
      ∧ ∃ ups names, relativePath source target = "::".intercalate (List.replicate ups "super" ++ names)
        ∧ ups + shared = place.length ∧ names = goal.drop shared
        ∧ (∀ name ∈ names, NamesModule name)
        ∧ follow place (List.replicate ups "super" ++ names) = some goal := by
  intro place goal shared
  obtain ⟨hplace, hgoal⟩ := sharedLength_le place goal
  have hshared : shared ≤ sharedLength place goal := Nat.min_le_left _ _
  have hle : shared ≤ place.length := Nat.le_trans hshared hplace
  have hnames : ∀ name ∈ goal, NamesModule name := fun name => namesModule_of_mem_components
  have hsuper : "super" ∉ goal := fun hmem => (hnames _ hmem).not_keyword (by decide)
  refine ⟨hle, Nat.le_trans hshared hgoal, place.length - shared, goal.drop shared, rfl, ?_, rfl, ?_, ?_⟩
  · exact Nat.sub_add_cancel hle
  · exact fun name hmem => hnames name (List.mem_of_mem_drop hmem)
  · exact follow_shared hsuper hshared

/-- A module of a raw name, from two modules that share none with it. -/
example : relativePath "api/GET_user" "./model/type" = "super::super::model::r#type" := by
  decide +kernel

end ApiContracts.Compile

import ApiContracts.Proofs.Rules.Validate
import Mathlib.Data.List.Induction

/-!
# What validation answers

A request is answered with the contract of all sections, or with everything that is wrong in the first
section that is violated. Within a section nothing ends the matter early: every fault has its text. Between
sections the first violated one does, so neither the rules of those behind it nor what they would read of
the request has any influence (`SectionRules.Agree`).
-/

namespace ApiContracts

open Json

namespace Check

instance (check : Check NamedType) (v : Value) : Decidable (check.Holds v) :=
  decidable_of_iff (check.violation "" "" v = none) violation_eq_none

theorem isSome_violation {check : Check NamedType} {key start : String} {v : Value} :
    (check.violation key start v).isSome = decide (¬ check.Holds v) := by
  by_cases hholds : check.Holds v
  · rw [violation_eq_none.2 hholds]
    simp [hholds]
  · have hsome : check.violation key start v ≠ none := fun h => hholds (violation_eq_none.1 h)
    simp [hholds, Option.isSome_iff_ne_none.2 hsome]

end Check

/-! ### What is told -/

def Mentions (text key : String) : Prop := ∃ before after, text = before ++ key ++ after

theorem mentions_of_plainViolation {wanted : String} {fits : Bool} {key start m : String}
    (h : plainViolation wanted fits key start = some m) : Mentions m key := by
  simp only [plainViolation, Option.ite_none_left_eq_some, Option.some.injEq] at h
  exact ⟨start, " must be " ++ wanted, by rw [← h.2, ← String.append_assoc]; rfl⟩

theorem mentions_intercalate {texts : List String} {key : String} (hne : texts ≠ [])
    (h : ∀ m ∈ texts, Mentions m key) : Mentions (", ".intercalate texts) key := by
  obtain ⟨first, rest, rfl⟩ := List.exists_cons_of_ne_nil hne
  obtain ⟨before, after, hfirst⟩ := h first List.mem_cons_self
  by_cases hrest : rest = []
  · subst hrest
    rw [String.intercalate_singleton]
    exact ⟨before, after, hfirst⟩
  · rw [String.intercalate_cons_of_ne_nil hrest, hfirst]
    refine ⟨before, after ++ (", " ++ ", ".intercalate rest), ?_⟩
    simp only [String.append_assoc]

mutual

theorem mentions_of_nestedViolation {t : NamedType} {key m : String} {v : Value}
    (h : nestedViolation t key v = some m) : Mentions m key := by
  match v with
  | .obj members =>
      rw [nestedViolation] at h
      split at h
      · cases h
      · next e _ =>
          cases h
          exact ⟨"", ": " ++ e.message, by rw [String.empty_append, ← String.append_assoc]; rfl⟩
  | .arr items =>
      simp only [nestedViolation, List.isEmpty_iff, Option.ite_none_left_eq_some,
        Option.some.injEq] at h
      rw [← h.2]
      exact mentions_intercalate h.1 fun m hm => mentions_of_mem_nestedViolations hm
  | .null | .bool _ | .int _ | .double _ | .str _ =>
      cases h
      exact ⟨"nested property ", " must be either object or array", rfl⟩

theorem mentions_of_mem_nestedViolations {t : NamedType} {key m : String} {items : List Value}
    (h : m ∈ nestedViolations t key items) : Mentions m key := by
  match items with
  | [] => simp [nestedViolations] at h
  | v :: rest =>
      rw [nestedViolations, List.mem_append, Option.mem_toList] at h
      rcases h with h | h
      · exact mentions_of_nestedViolation h
      · exact mentions_of_mem_nestedViolations h

end

theorem Check.mentions_of_violation {check : Check NamedType} {key start m : String} {v : Value}
    (h : check.violation key start v = some m) : Mentions m key := by
  cases check with
  | any => simp [violation] at h
  | nested t => exact mentions_of_nestedViolation h
  | _ => exact mentions_of_plainViolation h

namespace FieldRule

theorem mentions_of_mem_violations {r : FieldRule NamedType} {given : Option Value} {m : String}
    (h : m ∈ r.violations given) : Mentions m r.key := by
  unfold violations at h
  split at h
  · split at h
    · rw [List.mem_singleton.1 h]
      exact ⟨"", " should not be null or undefined", rfl⟩
    · simp at h
  · split at h
    · split at h
      · obtain ⟨x, -, hx⟩ := List.mem_filterMap.1 h
        exact Check.mentions_of_violation hx
      · rw [List.mem_singleton.1 h]
        exact ⟨"", " must be an array", rfl⟩
    · exact Check.mentions_of_violation (Option.mem_toList.1 h)

instance (r : FieldRule NamedType) (given : Option Value) : Decidable (r.Holds given) :=
  decidable_of_iff (r.violations given = []) violations_eq_nil

/-- The number of faults in what a section holds for a rule. Each element of an array that does not pass
is one, and so are a value that is missing or no array where it should be. -/
def faults (r : FieldRule NamedType) (given : Option Value) : Nat :=
  match given.filter (!·.isNull) with
  | none => if r.required then 1 else 0
  | some v =>
    if r.array then
      match v with
      | .arr items => items.countP fun x => decide (¬ r.check.Holds x)
      | _ => 1
    else if r.check.Holds v then 0 else 1

theorem length_violations {r : FieldRule NamedType} {given : Option Value} :
    (r.violations given).length = r.faults given := by
  unfold violations faults
  cases given.filter (!·.isNull) with
  | none => cases r.required <;> rfl
  | some v =>
      cases harray : r.array with
      | false =>
          have hsome : (r.check.violation r.key "" v).isSome = decide (¬ r.check.Holds v) :=
            Check.isSome_violation
          by_cases hholds : r.check.Holds v
          · simp [hholds, Check.violation_eq_none.2 hholds]
          · simp only [hholds, not_false_eq_true, decide_true] at hsome
            obtain ⟨m, hm⟩ := Option.isSome_iff_exists.1 hsome
            simp [hholds, hm]
      | true =>
          cases v with
          | arr items =>
              simp only [if_true, List.length_filterMap_eq_countP]
              exact List.countP_congr fun x _ => by rw [Check.isSome_violation]
          | _ => rfl

end FieldRule

/-! ### The raw input of a section -/

/-- Whether two requests hold the same raw input for a key of a section. -/
def Request.Agree (a b : Request) (part : Section) (key : String) : Prop :=
  match part with
  | .paths => a.pathParam? key = b.pathParam? key
  | .query => a.queryValues key = b.queryValues key
  | .headers => a.headerValues key = b.headerValues key
  | .body => a.body.bind (·.member? key) = b.body.bind (·.member? key)

def SectionRules.Agree (s : SectionRules NamedType) (a b : Request) : Prop :=
  ∀ r ∈ s.rules, a.Agree b s.part r.key

theorem FieldRule.valueIn_congr {r : FieldRule NamedType} {part : Section} {a b : Request}
    (h : a.Agree b part r.key) : r.valueIn part a = r.valueIn part b := by
  unfold Request.Agree at h
  unfold valueIn
  cases part <;> simp only at h ⊢ <;> rw [h]

namespace SectionRules

/-- A section holds what its rules find. -/
theorem decode_congr_of_valueIn {s : SectionRules NamedType} {a b : Request}
    (h : ∀ r ∈ s.rules, r.valueIn s.part a = r.valueIn s.part b) : s.decode a = s.decode b := by
  unfold decode
  refine List.foldl_ext _ _ _ ?_
  intro t r hr
  rw [h r hr]

theorem decode_congr {s : SectionRules NamedType} {a b : Request} (h : s.Agree a b) :
    s.decode a = s.decode b := by
  exact decode_congr_of_valueIn fun r hr => FieldRule.valueIn_congr (h r hr)

theorem holds_congr {s : SectionRules NamedType} {a b : Request} (h : s.Agree a b) :
    s.Holds a ↔ s.Holds b := by
  rw [Holds, Holds, decode_congr h]

/-! ### The first violated section -/

instance (s : SectionRules NamedType) (req : Request) : Decidable (s.Holds req) :=
  inferInstanceAs (Decidable (∀ r ∈ s.rules, _))

/-- All that is wrong in a section, in one text. -/
def violation (s : SectionRules NamedType) (req : Request) : Violation :=
  ⟨s.part, ", ".intercalate (s.violations (s.decode req))⟩

theorem violation_congr {s : SectionRules NamedType} {a b : Request} (h : s.Agree a b) :
    s.violation a = s.violation b := by
  rw [violation, violation, decode_congr h]

theorem decodeValid_of_not_holds {s : SectionRules NamedType} {req : Request} (h : ¬ s.Holds req) :
    s.decodeValid req = .error (s.violation req) := by
  rw [← violations_eq_nil] at h
  rw [decodeValid, validate, violation]
  cases hfound : s.violations (s.decode req) with
  | nil => exact absurd hfound h
  | cons first rest => rfl

end SectionRules

def firstViolated (sections : List (SectionRules NamedType)) (req : Request) :
    Option (SectionRules NamedType) :=
  sections.find? fun s => decide (¬ s.Holds req)

theorem contractOf_eq_firstViolated {sections : List (SectionRules NamedType)} {req : Request}
    {done : Table Value} :
    contractOf done sections req
      = match firstViolated sections req with
        | some s => .error (s.violation req)
        | none => .ok (gathered done sections req) := by
  induction sections generalizing done with
  | nil => rfl
  | cons s rest ih =>
      rw [contractOf, firstViolated, List.find?_cons]
      by_cases hholds : s.Holds req
      · rw [SectionRules.decodeValid_eq_ok.2 ⟨hholds, rfl⟩]
        simp only [hholds, not_true_eq_false, decide_false]
        exact ih
      · rw [SectionRules.decodeValid_of_not_holds hholds]
        simp [hholds]

theorem firstViolated_eq_none {sections : List (SectionRules NamedType)} {req : Request} :
    firstViolated sections req = none ↔ ∀ s ∈ sections, s.Holds req := by
  simp [firstViolated, List.find?_eq_none]

theorem firstViolated_eq_some {sections : List (SectionRules NamedType)} {req : Request}
    {s : SectionRules NamedType} :
    firstViolated sections req = some s
      ↔ ¬ s.Holds req
        ∧ ∃ before after, sections = before ++ s :: after ∧ ∀ b ∈ before, b.Holds req := by
  simp [firstViolated, List.find?_eq_some_iff_append]

theorem decodeAndValidate_eq_error {sections : List (SectionRules NamedType)} {req : Request}
    {err : Violation} :
    decodeAndValidate sections req = .error err
      ↔ ∃ s, firstViolated sections req = some s ∧ err = s.violation req := by
  rw [decodeAndValidate, contractOf_eq_firstViolated]
  cases firstViolated sections req with
  | none => simp [Except.map]
  | some s => simp [Except.map, eq_comm]

/-- Nothing behind a violated section is looked at. -/
theorem firstViolated_append {before after : List (SectionRules NamedType)}
    {s : SectionRules NamedType} {req : Request} (hviolated : ¬ s.Holds req) :
    firstViolated (before ++ s :: after) req = firstViolated (before ++ [s]) req := by
  have hs : decide (¬ s.Holds req) = true := by simp [hviolated]
  rw [firstViolated, firstViolated, List.find?_append, List.find?_append, List.find?_cons, hs,
    List.find?_cons, hs]

theorem firstViolated_congr {sections : List (SectionRules NamedType)} {a b : Request}
    (h : ∀ s ∈ sections, s.Agree a b) : firstViolated sections a = firstViolated sections b := by
  induction sections with
  | nil => rfl
  | cons s rest ih =>
      have hs : s.Holds a ↔ s.Holds b := SectionRules.holds_congr (h s List.mem_cons_self)
      have hrest := ih fun s' hs' => h s' (List.mem_cons_of_mem _ hs')
      unfold firstViolated at hrest ⊢
      rw [List.find?_cons, List.find?_cons, hrest]
      simp only [hs]

theorem decodeAndValidate_congr {before after after' : List (SectionRules NamedType)}
    {s : SectionRules NamedType} {a b : Request} (hviolated : ¬ s.Holds a)
    (h : ∀ s' ∈ before ++ [s], s'.Agree a b) :
    decodeAndValidate (before ++ s :: after') b = decodeAndValidate (before ++ s :: after) a := by
  have hviolated' : ¬ s.Holds b := by
    rw [← SectionRules.holds_congr (h s (by simp))]
    exact hviolated
  cases hfirst : firstViolated (before ++ [s]) a with
  | none => exact absurd (firstViolated_eq_none.1 hfirst s (by simp)) hviolated
  | some t =>
      have ht : t ∈ before ++ [s] := List.mem_of_find?_eq_some hfirst
      have ha : decodeAndValidate (before ++ s :: after) a = .error (t.violation a) := by
        rw [decodeAndValidate_eq_error]
        exact ⟨t, by rw [firstViolated_append hviolated, hfirst], rfl⟩
      have hb : decodeAndValidate (before ++ s :: after') b = .error (t.violation b) := by
        rw [decodeAndValidate_eq_error]
        exact ⟨t, by rw [firstViolated_append hviolated', ← firstViolated_congr h, hfirst], rfl⟩
      rw [ha, hb, SectionRules.violation_congr (h t ht)]

/-! ### The contract -/

theorem gathered_concat {sections : List (SectionRules NamedType)} {s : SectionRules NamedType}
    {req : Request} {done : Table Value} :
    gathered done (sections ++ [s]) req
      = (gathered done sections req).insert s.part.name (.obj (s.decode req).entries) := by
  simp [gathered]

/-- The object a contract holds under a name: what the last section of that name decodes to. -/
def decodedAs (sections : List (SectionRules NamedType)) (req : Request) (name : String) :
    Option Value :=
  (sections.reverse.find? fun s => s.part.name == name).map fun s => .obj (s.decode req).entries

theorem get?_gathered_empty {sections : List (SectionRules NamedType)} {req : Request}
    {name : String} :
    (gathered .empty sections req).get? name = decodedAs sections req name := by
  induction sections using List.reverseRecOn with
  | nil => rfl
  | append_singleton sections s ih =>
      rw [gathered_concat, Table.get?_insert, ih, decodedAs, decodedAs, List.reverse_append,
        List.reverse_singleton, List.singleton_append, List.find?_cons]
      by_cases hname : name = s.part.name
      · simp [hname]
      · have hne : (s.part.name == name) = false := beq_eq_false_iff_ne.2 fun h => hname h.symm
        rw [if_neg hname, hne]

theorem decodeAndValidate_eq_ok_iff_decodedAs {sections : List (SectionRules NamedType)}
    {req : Request} {v : Value} :
    decodeAndValidate sections req = .ok v
      ↔ (∀ s ∈ sections, s.Holds req)
        ∧ ∃ t : Table Value, v = .obj t.entries ∧ ∀ name, t.get? name = decodedAs sections req name := by
  rw [decodeAndValidate_eq_ok]
  refine and_congr_right fun _ => ?_
  constructor
  · rintro rfl
    exact ⟨_, rfl, fun name => get?_gathered_empty⟩
  · rintro ⟨t, rfl, ht⟩
    have heq : t = gathered .empty sections req :=
      Table.ext_get? fun name => (ht name).trans get?_gathered_empty.symm
    rw [heq]

/-- A request is valid exactly when every rule of every section holds, and its contract then holds
what each section decodes to and nothing else. Otherwise the first violated section is told, with one text
for every fault in the order of its rules, and nothing behind that section changes the answer. -/
theorem valid_iff_holds_else_first_violated (sections : List (SectionRules NamedType)) (req : Request) :
    ((∃ v, decodeAndValidate sections req = .ok v) ↔ ∀ s ∈ sections, s.Holds req)
      ∧ (∀ v, decodeAndValidate sections req = .ok v ↔ (∀ s ∈ sections, s.Holds req)
          ∧ ∃ t : Table Value, v = .obj t.entries
            ∧ ∀ name, t.get? name = decodedAs sections req name)
      ∧ (∀ err, decodeAndValidate sections req = .error err
          ↔ ∃ before s after, sections = before ++ s :: after ∧ (∀ b ∈ before, b.Holds req)
            ∧ ¬ s.Holds req ∧ err.part = s.part
            ∧ err.message = ", ".intercalate
                (s.rules.flatMap fun r => r.violations ((s.decode req).get? r.key)))
      ∧ (∀ s ∈ sections, ∀ r ∈ s.rules,
          (r.violations ((s.decode req).get? r.key)).length = r.faults ((s.decode req).get? r.key)
            ∧ ∀ m ∈ r.violations ((s.decode req).get? r.key), Mentions m r.key)
      ∧ ∀ before s after after' req', sections = before ++ s :: after → ¬ s.Holds req →
          (∀ b ∈ before ++ [s], b.Agree req req') →
            decodeAndValidate (before ++ s :: after') req' = decodeAndValidate sections req := by
  refine ⟨?_, fun v => decodeAndValidate_eq_ok_iff_decodedAs, ?_, ?_, ?_⟩
  · constructor
    · rintro ⟨v, hv⟩
      exact (decodeAndValidate_eq_ok.1 hv).1
    · intro hholds
      exact ⟨_, decodeAndValidate_eq_ok.2 ⟨hholds, rfl⟩⟩
  · rintro ⟨part, message⟩
    rw [decodeAndValidate_eq_error]
    constructor
    · rintro ⟨s, hs, herr⟩
      obtain ⟨hviolated, before, after, rfl, hbefore⟩ := firstViolated_eq_some.1 hs
      obtain ⟨rfl, rfl⟩ := Violation.mk.injEq .. ▸ herr
      exact ⟨before, s, after, rfl, hbefore, hviolated, rfl, rfl⟩
    · rintro ⟨before, s, after, rfl, hbefore, hviolated, rfl, rfl⟩
      exact ⟨s, firstViolated_eq_some.2 ⟨hviolated, before, after, rfl, hbefore⟩, rfl⟩
  · intro s _ r _
    exact ⟨FieldRule.length_violations, fun m hm => FieldRule.mentions_of_mem_violations hm⟩
  · rintro before s after after' req' rfl hviolated hagree
    exact decodeAndValidate_congr hviolated hagree

section Sample

def idRules : SectionRules NamedType := ⟨.paths, [{ key := "id", check := .integer }]⟩

def filterRules : SectionRules NamedType :=
  ⟨.query, [{ key := "flags", check := .boolean, array := true }, { key := "name", check := .string }]⟩

def noteRules : SectionRules NamedType := ⟨.body, [{ key := "note", check := .string }]⟩

def namelessSearch : Request where
  pathParams := [("id", "7")]
  query := [("flags", "on"), ("flags", "true"), ("flags", "off")]

/-- Three faults are told, whether or not a body comes behind them and has rules of its own. -/
theorem nameless_search_refused :
    decodeAndValidate [idRules, filterRules, noteRules] namelessSearch
        = .error ⟨.query, "each value in flags must be a boolean value, each value in flags must be "
            ++ "a boolean value, name should not be null or undefined"⟩
      ∧ decodeAndValidate [idRules, filterRules] { namelessSearch with body := some .null }
        = decodeAndValidate [idRules, filterRules, noteRules] namelessSearch
      ∧ ¬ ∃ v, decodeAndValidate [idRules, filterRules, noteRules] namelessSearch = .ok v := by
  obtain ⟨hvalid, -, hrefused, -, hframe⟩ :=
    valid_iff_holds_else_first_violated [idRules, filterRules, noteRules] namelessSearch
  have hid : idRules.Holds namelessSearch := by decide +kernel
  have hfilter : ¬ filterRules.Holds namelessSearch := by decide +kernel
  refine ⟨?_, ?_, ?_⟩
  · refine (hrefused _).2 ⟨[idRules], filterRules, [noteRules], rfl, by simpa using hid, hfilter, rfl, ?_⟩
    decide +kernel
  · refine hframe [idRules] filterRules [noteRules] [] _ rfl hfilter ?_
    simp [SectionRules.Agree, Request.Agree, idRules, filterRules, Request.pathParam?,
      Request.queryValues]
  · rw [hvalid]
    exact fun h => hfilter (h filterRules (by simp))

end Sample

end ApiContracts

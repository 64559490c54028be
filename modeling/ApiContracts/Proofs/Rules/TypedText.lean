import ApiContracts.Proofs.Rules.Outcome
import ApiContracts.Proofs.Service.RawParams

/-!
# Texts for integers and truth values

A text that is sent for an integer or a truth value is read, and if it cannot be read it stays the text it is. No
text of its own kind can pass either check, so nothing but the reading decides whether a request is valid, and what
its contract holds then is what the text means (`Means`). For an integer that is a numeral of 64 bits with a sign
among blank characters; a greater one is refused like any other text, and none comes out as another number.
-/

namespace ApiContracts

open Json Text

/-- What a text means to a check for integers, blank characters around it aside, or for truth values. -/
inductive Means : Check NamedType → String → Value → Prop where
  | integer {text : String} {core : List Char} {n : Int} (hcore : Stripped text.toList core)
      (hnumeral : Numeral core n) (hlow : -2 ^ 63 ≤ n) (hhigh : n < 2 ^ 63) : Means .integer text (.int n)
  | yes : Means .boolean "true" (.bool true)
  | no : Means .boolean "false" (.bool false)

namespace Check

/-- The checks for integers and truth values, with the words for what they want. -/
inductive Wants : Check NamedType → String → Prop where
  | integer : Wants .integer "an integer number"
  | boolean : Wants .boolean "a boolean value"

variable {check : Check NamedType} {wanted text : String}

theorem Wants.read?_eq_some (h : check.Wants wanted) {v : Value} : check.read? text = some v ↔ Means check text v := by
  cases h with
  | integer =>
      simp only [read?, Option.map_eq_some_iff, signed64_eq_some]
      constructor
      · rintro ⟨n, ⟨hnumeral, hlow, hhigh⟩, rfl⟩
        exact .integer (stripped_trim _) hnumeral hlow hhigh
      · rintro ⟨hcore, hnumeral, hlow, hhigh⟩
        rw [trim_eq_iff.2 hcore]
        exact ⟨_, ⟨hnumeral, hlow, hhigh⟩, rfl⟩
  | boolean =>
      simp only [read?]
      constructor
      · intro hread
        split at hread
        · next htrue =>
            cases hread
            exact htrue ▸ .yes
        · split at hread
          · next hfalse =>
              cases hread
              exact hfalse ▸ .no
          · cases hread
      · rintro (_ | _)
        · rfl
        · rfl

theorem Wants.coerce_eq (h : check.Wants wanted) {v : Value} (hmeans : Means check text v) : check.coerce text = v := by
  rw [coerce, h.read?_eq_some.2 hmeans, Option.getD_some]

theorem Wants.coerce_eq_text (h : check.Wants wanted) (hnone : ¬ ∃ v, Means check text v) :
    check.coerce text = .str text := by
  have hread : check.read? text = none := by
    rw [Option.eq_none_iff_forall_ne_some]
    exact fun v hv => hnone ⟨v, h.read?_eq_some.1 hv⟩
  rw [coerce, hread, Option.getD_none]

theorem Wants.violation_text (h : check.Wants wanted) (key : String) :
    check.violation key "" (.str text) = some s!"{key} must be {wanted}" := by
  cases h with
  | integer => simp only [violation, plainViolation, Bool.false_eq_true, if_false, toString, String.empty_append]
  | boolean => simp only [violation, plainViolation, Bool.false_eq_true, if_false, toString, String.empty_append]

end Check

theorem Means.violation {check : Check NamedType} {text : String} {v : Value} (h : Means check text v) (key : String) :
    check.violation key "" v = none ∧ v.isNull = false := by
  cases h with
  | integer => exact ⟨rfl, rfl⟩
  | yes => exact ⟨rfl, rfl⟩
  | no => exact ⟨rfl, rfl⟩

namespace FieldRule

variable {r : FieldRule NamedType} {part : Section} {req : Request} {wanted text : String}

theorem violations_scalar (harray : r.array = false) {v : Value} (hv : v.isNull = false) :
    r.violations (some v) = (r.check.violation r.key "" v).toList := by
  rw [violations, filter_not_isNull hv]
  simp only [harray, Bool.false_eq_true, if_false]

theorem valueIn_last (hpart : part ≠ .body) (harray : r.array = false)
    (hsent : (req.textsOf part r.key).getLast? = some text) : r.valueIn part req = some (r.check.coerce text) := by
  rw [valueIn_eq_ofTexts hpart fun _ => harray, ofTexts_scalar harray, hsent, Option.map_some]

theorem means_read (harray : r.array = false) (h : r.check.Wants wanted) {v : Value} (hmeans : Means r.check text v) :
    r.check.coerce text = v ∧ r.violations (some v) = [] := by
  obtain ⟨hnone, hnull⟩ := hmeans.violation r.key
  rw [violations_scalar harray hnull, hnone]
  exact ⟨h.coerce_eq hmeans, rfl⟩

theorem meaningless_read (harray : r.array = false) (h : r.check.Wants wanted)
    (hnone : ¬ ∃ v, Means r.check text v) : r.check.coerce text = .str text
      ∧ r.violations (some (.str text)) = [s!"{r.key} must be {wanted}"] := by
  rw [violations_scalar harray rfl, h.violation_text]
  exact ⟨h.coerce_eq_text hnone, rfl⟩

theorem holds_coerce_iff (harray : r.array = false) (h : r.check.Wants wanted) :
    r.Holds (some (r.check.coerce text)) ↔ ∃ v, Means r.check text v := by
  rw [← violations_eq_nil]
  by_cases hmeans : ∃ v, Means r.check text v
  · obtain ⟨v, hv⟩ := hmeans
    obtain ⟨hcoerce, hviolations⟩ := means_read harray h hv
    rw [hcoerce, hviolations]
    exact iff_of_true rfl ⟨v, hv⟩
  · obtain ⟨hcoerce, hviolations⟩ := meaningless_read harray h hmeans
    rw [hcoerce, hviolations]
    exact iff_of_false (List.cons_ne_nil _ _) hmeans

end FieldRule

theorem exists_contract_iff {r : FieldRule NamedType} {part : Section} {req : Request}
    {before after : List (FieldRule NamedType)} {earlier later : List (SectionRules NamedType)} :
    let s : SectionRules NamedType := ⟨part, before ++ r :: after⟩
    (∃ contract, decodeAndValidate (earlier ++ s :: later) req = .ok contract)
      ↔ r.Holds ((s.decode req).get? r.key) ∧ (∀ q ∈ before ++ after, q.Holds ((s.decode req).get? q.key))
        ∧ ∀ s' ∈ earlier ++ later, s'.Holds req := by
  intro s
  have hvalid : (∃ contract, decodeAndValidate (earlier ++ s :: later) req = .ok contract)
      ↔ ∀ s' ∈ earlier ++ s :: later, s'.Holds req := by
    simp only [decodeAndValidate_eq_ok, exists_and_left, exists_eq, and_true]
  have hsection : s.Holds req ↔ r.Holds ((s.decode req).get? r.key)
      ∧ ∀ q ∈ before ++ after, q.Holds ((s.decode req).get? q.key) := by
    rw [SectionRules.Holds, List.forall_mem_append, List.forall_mem_cons, List.forall_mem_append]
    exact and_left_comm
  rw [hvalid, List.forall_mem_append, List.forall_mem_cons, and_left_comm, ← List.forall_mem_append, hsection,
    and_assoc]

theorem decodedAs_last {earlier later : List (SectionRules NamedType)} {s : SectionRules NamedType} {req : Request}
    (hlater : ∀ s' ∈ later, s'.part ≠ s.part) :
    decodedAs (earlier ++ s :: later) req s.part.name = some (.obj (s.decode req).entries) := by
  have hnone : later.reverse.find? (fun s' => s'.part.name == s.part.name) = none := by
    rw [List.find?_eq_none]
    intro s' hs'
    have hne : s'.part.name ≠ s.part.name :=
      fun heq => hlater s' (List.mem_reverse.1 hs') (Section.name_injective heq)
    simpa using hne
  rw [decodedAs, List.reverse_append, List.reverse_cons, List.append_assoc, List.find?_append, hnone]
  simp

/-- A text that is sent for one integer or truth value is decoded as what it means, and then its rule tells nothing.
If it means nothing it stays as it is, and its rule tells what it wants. Among whatever other sections and rules, a
request is valid exactly if these hold and the text means something, and then the contract holds what it means. -/
theorem typed_text_read_exactly {r : FieldRule NamedType} (harray : r.array = false) {wanted : String}
    (hcheck : r.check.Wants wanted) {part : Section} (hpart : part ≠ .body) {req : Request} {text : String}
    (hsent : (req.textsOf part r.key).getLast? = some text) :
    let given := r.valueIn part req
    (∀ v, Means r.check text v → given = some v ∧ r.violations given = [])
      ∧ ((¬ ∃ v, Means r.check text v) →
          given = some (.str text) ∧ r.violations given = [s!"{r.key} must be {wanted}"])
      ∧ ∀ before after, (∀ q ∈ after, q.key ≠ r.key) → ∀ earlier later,
          let s : SectionRules NamedType := ⟨part, before ++ r :: after⟩
          let outcome := decodeAndValidate (earlier ++ s :: later) req
          (s.decode req).get? r.key = given
            ∧ ((¬ ∃ v, Means r.check text v) → s!"{r.key} must be {wanted}" ∈ s.violations (s.decode req))
            ∧ ((∃ contract, outcome = .ok contract) ↔ (∃ v, Means r.check text v)
                ∧ (∀ q ∈ before ++ after, q.Holds ((s.decode req).get? q.key))
                ∧ ∀ s' ∈ earlier ++ later, s'.Holds req)
            ∧ ((∀ s' ∈ later, s'.part ≠ part) → ∀ contract, outcome = .ok contract → ∀ v, Means r.check text v →
                (contract.member? part.name).bind (·.member? r.key) = some v) := by
  intro given
  have hgiven : given = some (r.check.coerce text) := FieldRule.valueIn_last hpart harray hsent
  have hmeans : ∀ v, Means r.check text v → given = some v ∧ r.violations given = [] := by
    intro v hv
    obtain ⟨hcoerce, hviolations⟩ := FieldRule.means_read harray hcheck hv
    rw [hgiven, hcoerce]
    exact ⟨rfl, hviolations⟩
  have hmeaningless : (¬ ∃ v, Means r.check text v) →
      given = some (.str text) ∧ r.violations given = [s!"{r.key} must be {wanted}"] := by
    intro hnone
    obtain ⟨hcoerce, hviolations⟩ := FieldRule.meaningless_read harray hcheck hnone
    rw [hgiven, hcoerce]
    exact ⟨rfl, hviolations⟩
  refine ⟨hmeans, hmeaningless, ?_⟩
  intro before after hafter earlier later s outcome
  have hheld : (s.decode req).get? r.key = given := SectionRules.get?_decode_last hafter
  refine ⟨hheld, ?_, ?_, ?_⟩
  · intro hnone
    have hrule : s!"{r.key} must be {wanted}" ∈ r.violations ((s.decode req).get? r.key) := by
      rw [hheld, (hmeaningless hnone).2]
      exact List.mem_singleton_self _
    exact List.mem_flatMap.2 ⟨r, by simp [s], hrule⟩
  · rw [← FieldRule.holds_coerce_iff harray hcheck, ← hgiven, ← hheld]
    exact exists_contract_iff
  · intro hlater contract hcontract v hv
    obtain ⟨-, rfl⟩ := decodeAndValidate_eq_ok.1 hcontract
    have hsection : (Value.obj (gathered .empty (earlier ++ s :: later) req).entries).member? part.name
        = some (.obj (s.decode req).entries) := by
      exact get?_gathered_empty.trans (decodedAs_last (s := s) hlater)
    rw [hsection, Option.bind_some]
    exact hheld.trans (hmeans v hv).1

section Sample

def shelfRule : FieldRule NamedType := { key := "X-Shelf", check := .integer }

def shelved : Request where
  headers := [("x-shelf", "low"), ("accept", "7"), ("X-SHELF", " -0042\u00a0")]

def overfull : Request where
  headers := [("x-shelf", "9223372036854775808")]

theorem means_shelf : Means .integer " -0042\u00a0" (.int (-42)) := by
  have hdigits : Digits ['0', '0', '4', '2'] := ⟨by decide, List.all_eq_true.1 (by decide)⟩
  have hstripped : Stripped " -0042\u00a0".toList ['-', '0', '0', '4', '2'] :=
    trim_eq_iff.1 (by decide)
  exact .integer hstripped (.minus hdigits) (by decide) (by decide)

/-- The last shelf is read, whatever is around its number; the next integer after the greatest one is told of. -/
theorem shelf_read_exactly :
    (∃ contract, decodeAndValidate [⟨.headers, [shelfRule]⟩] shelved = .ok contract
        ∧ (contract.member? "headers").bind (·.member? "X-Shelf") = some (.int (-42)))
      ∧ shelfRule.valueIn .headers overfull = some (.str "9223372036854775808")
      ∧ shelfRule.violations (some (.str "9223372036854775808")) = ["X-Shelf must be an integer number"]
      ∧ ¬ ∃ contract, decodeAndValidate [⟨.headers, [shelfRule]⟩] overfull = .ok contract := by
  have hlast : (shelved.textsOf .headers shelfRule.key).getLast? = some " -0042\u00a0" := by decide +kernel
  have hover : (overfull.textsOf .headers shelfRule.key).getLast? = some "9223372036854775808" := by decide +kernel
  have hnone : ¬ ∃ v, Means shelfRule.check "9223372036854775808" v := by
    have hread : (shelfRule.check.read? "9223372036854775808").isSome = false := by decide +kernel
    rintro ⟨v, hv⟩
    have hwants : shelfRule.check.Wants "an integer number" := .integer
    rw [hwants.read?_eq_some.2 hv] at hread
    cases hread
  obtain ⟨-, -, hshelved⟩ := @typed_text_read_exactly shelfRule rfl _ .integer .headers (by decide) _ _ hlast
  obtain ⟨-, htold, hoverfull⟩ := @typed_text_read_exactly shelfRule rfl _ .integer .headers (by decide) _ _ hover
  obtain ⟨-, -, hvalid, hheld⟩ := hshelved [] [] (by simp) [] []
  obtain ⟨-, -, hrefused, -⟩ := hoverfull [] [] (by simp) [] []
  obtain ⟨hgiven, hviolations⟩ := htold hnone
  rw [hgiven] at hviolations
  obtain ⟨contract, hcontract⟩ := hvalid.2 ⟨⟨_, means_shelf⟩, by simp, by simp⟩
  exact ⟨⟨contract, hcontract, hheld (by simp) contract hcontract _ means_shelf⟩, hgiven, hviolations,
    fun h => hnone (hrefused.1 h).1⟩

end Sample

end ApiContracts

import ApiContracts.Proofs.Rules.Validate
import ApiContracts.Proofs.Text.Numeral

/-!
# Sections sent as texts

Paths, headers and the query carry texts. A set of values is sent as one text for a scalar and one for each
element of a list, in any places between other entries (`Sends`), and what the section decodes to is these
values again. The one exception are integers that no text is read as: beyond 64 bits with a sign a numeral
stays the text it is, and its rule is violated.
-/

namespace ApiContracts

open Json Text

/-! ### What a decoded section holds -/

section Decode

variable {part : Section} {req : Request}

def decodeRule (part : Section) (req : Request) (t : Table Value) (r : FieldRule NamedType) : Table Value :=
  (r.valueIn part req).elim t (t.insert r.key)

theorem get?_decodeRule {t : Table Value} {r : FieldRule NamedType} {key : String} :
    (decodeRule part req t r).get? key
      = if key = r.key then (r.valueIn part req).or (t.get? key) else t.get? key := by
  rw [decodeRule]
  cases r.valueIn part req with
  | none => simp
  | some v => simp

theorem get?_foldl_decodeRule_of_not_mem {t : Table Value} {rules : List (FieldRule NamedType)} {key : String}
    (h : key ∉ rules.map (·.key)) : (rules.foldl (decodeRule part req) t).get? key = t.get? key := by
  induction rules generalizing t with
  | nil => rfl
  | cons r rest ih =>
      rw [List.map_cons, List.mem_cons, not_or] at h
      rw [List.foldl_cons, ih h.2, get?_decodeRule, if_neg h.1]

theorem get?_foldl_decodeRule {t : Table Value} {rules : List (FieldRule NamedType)}
    (hkeys : (rules.map (·.key)).Nodup) {r : FieldRule NamedType} (hr : r ∈ rules) :
    (rules.foldl (decodeRule part req) t).get? r.key = (r.valueIn part req).or (t.get? r.key) := by
  induction rules generalizing t with
  | nil => simp at hr
  | cons q rest ih =>
      rw [List.map_cons, List.nodup_cons] at hkeys
      rw [List.foldl_cons]
      rcases List.mem_cons.1 hr with rfl | hr
      · rw [get?_foldl_decodeRule_of_not_mem hkeys.1, get?_decodeRule, if_pos rfl]
      · have hne : r.key ≠ q.key := fun heq => hkeys.1 (heq ▸ List.mem_map_of_mem (f := (·.key)) hr)
        rw [ih hkeys.2 hr, get?_decodeRule, if_neg hne]

end Decode

namespace SectionRules

variable {s : SectionRules NamedType} {req : Request}

theorem decode_eq_foldl : s.decode req = s.rules.foldl (decodeRule s.part req) .empty := by
  rfl

theorem get?_decode_of_not_mem {key : String} (h : key ∉ s.rules.map (·.key)) :
    (s.decode req).get? key = none := by
  rw [decode_eq_foldl, get?_foldl_decodeRule_of_not_mem h, Table.get?_empty]

theorem get?_decode (hkeys : (s.rules.map (·.key)).Nodup) {r : FieldRule NamedType} (hr : r ∈ s.rules) :
    (s.decode req).get? r.key = r.valueIn s.part req := by
  rw [decode_eq_foldl, get?_foldl_decodeRule hkeys hr, Table.get?_empty, Option.or_none]

end SectionRules

/-! ### What a request sends -/

/-- The entries that a section of a request takes its texts from; a body is no such section. -/
def Request.entriesOf (req : Request) : Section → List (String × String)
  | .paths => req.pathParams
  | .query => req.query
  | .headers => req.headers
  | .body => []

/-- Whether a name stands for a key; the letter case of a header's name does not count. -/
def Section.names : Section → String → String → Bool
  | .headers, name, key => sameLetters name key
  | _, name, key => name == key

def Request.textsOf (req : Request) (part : Section) (key : String) : List String :=
  ((req.entriesOf part).filter fun e => part.names e.1 key).map (·.2)

/-- The text of a scalar that a check asks for: a text as it is, an integer in decimals, `true` or `false`. -/
inductive Spells : Check NamedType → Value → String → Prop where
  | string (s : String) : Spells .string (.str s) s
  | integer (n : Int) : Spells .integer (.int n) (toString n)
  | boolean (b : Bool) : Spells .boolean (.bool b) (toString b)

/-- The texts that are sent for a value of a rule: a text for a scalar, one for each element of a list of two or
more, none where there is no value. -/
inductive SentAs (r : FieldRule NamedType) : Option Value → List String → Prop where
  | absent : SentAs r none []
  | scalar {v : Value} {text : String} (harray : r.array = false) (hspells : Spells r.check v text) :
      SentAs r (some v) [text]
  | list {items : List Value} {texts : List String} (harray : r.array = true) (htwo : 2 ≤ items.length)
      (hspells : List.Forall₂ (Spells r.check) items texts) : SentAs r (some (.arr items)) texts

/-- Whether a request sends these values for a section, all that are required and none undeclared. Entries of
other names may stand anywhere. -/
structure Sends (s : SectionRules NamedType) (given : Table Value) (req : Request) : Prop where
  declared : ∀ key, (given.get? key).isSome → key ∈ s.rules.map (·.key)
  required : ∀ r ∈ s.rules, r.required = true → (given.get? r.key).isSome
  texts : ∀ r ∈ s.rules, SentAs r (given.get? r.key) (req.textsOf s.part r.key)

/-! ### What is read again -/

def scalarFits : Value → Bool
  | .int n => isSigned64 n
  | _ => true

/-- Whether the integers of a value, a scalar or a list of scalars, have 64 bits with a sign. -/
def valueFits : Value → Bool
  | .arr items => items.all scalarFits
  | v => scalarFits v

/-- What a scalar comes out as when its text is read. -/
def rereadScalar : Value → Value
  | .int n => if isSigned64 n then .int n else .str (toString n)
  | v => v

def reread : Value → Value
  | .arr items => .arr (items.map rereadScalar)
  | v => rereadScalar v

theorem rereadScalar_eq_iff {v : Value} : rereadScalar v = v ↔ scalarFits v = true := by
  cases v with
  | int n => simp [rereadScalar, scalarFits]
  | _ => simp [rereadScalar, scalarFits]

theorem reread_eq_iff {v : Value} : reread v = v ↔ valueFits v = true := by
  cases v with
  | arr items =>
      have hitems : items.map rereadScalar = items ↔ ∀ x ∈ items, rereadScalar x = x := by
        induction items with
        | nil => simp
        | cons x rest ih => rw [List.map_cons, List.cons.injEq, ih, List.forall_mem_cons]
      simp only [reread, valueFits, Value.arr.injEq, List.all_eq_true, hitems, rereadScalar_eq_iff]
  | _ => simp only [reread, valueFits, rereadScalar_eq_iff]

theorem Spells.coerce {check : Check NamedType} {v : Value} {text : String} (h : Spells check v text) :
    check.coerce text = rereadScalar v := by
  cases h with
  | string s => rfl
  | integer n =>
      rw [Check.coerce, Check.read?, trim_toString, signed64_toString, rereadScalar]
      split <;> rfl
  | boolean b => cases b <;> rfl

theorem Spells.notArray {check : Check NamedType} {v : Value} {text : String} (h : Spells check v text) :
    reread v = rereadScalar v ∧ valueFits v = scalarFits v := by
  cases h <;> exact ⟨rfl, rfl⟩

/-- A scalar that was sent passes its check exactly if it was read again as it was. -/
theorem Spells.holds_iff {check : Check NamedType} {v : Value} {text : String} (h : Spells check v text) :
    check.Holds (rereadScalar v) ↔ scalarFits v = true := by
  cases h with
  | string s => simp [Check.Holds, rereadScalar, scalarFits]
  | boolean b => simp [Check.Holds, rereadScalar, scalarFits]
  | integer n =>
      simp only [Check.Holds, rereadScalar, scalarFits]
      split
      · next hfits => simp [hfits]
      · next hfits => simp [hfits]

theorem Spells.isNull {check : Check NamedType} {v : Value} {text : String} (h : Spells check v text) :
    (rereadScalar v).isNull = false := by
  cases h with
  | string s => rfl
  | boolean b => rfl
  | integer n =>
      rw [rereadScalar]
      split <;> rfl

theorem map_coerce_of_spells {check : Check NamedType} {items : List Value} {texts : List String}
    (h : List.Forall₂ (Spells check) items texts) : texts.map check.coerce = items.map rereadScalar := by
  induction h with
  | nil => rfl
  | cons hspells _ ih => rw [List.map_cons, List.map_cons, hspells.coerce, ih]

theorem holds_iff_of_spells {check : Check NamedType} {items : List Value} {texts : List String}
    (h : List.Forall₂ (Spells check) items texts) :
    (∀ x ∈ items.map rereadScalar, check.Holds x) ↔ items.all scalarFits = true := by
  induction h with
  | nil => simp
  | cons hspells _ ih =>
      rw [List.map_cons, List.forall_mem_cons, hspells.holds_iff, ih, List.all_cons, Bool.and_eq_true]

section Texts

variable {r : FieldRule NamedType} {texts : List String}

theorem FieldRule.ofTexts_scalar (h : r.array = false) :
    r.ofTexts texts = texts.getLast?.map r.check.coerce := by
  unfold FieldRule.ofTexts
  rw [if_neg (by simp [h])]

/-- One text alone would be cut at its commas; two or more are the elements as they are. -/
theorem FieldRule.ofTexts_many (h : r.array = true) (htwo : 2 ≤ texts.length) :
    r.ofTexts texts = some (.arr (texts.map r.check.coerce)) := by
  unfold FieldRule.ofTexts
  rw [if_pos h]
  split
  · simp at htwo
  · simp at htwo
  · rfl

end Texts

namespace SentAs

variable {r : FieldRule NamedType} {texts : List String}

/-- What a rule makes of the texts sent for a value is the value read again. -/
theorem ofTexts {given : Option Value} (h : SentAs r given texts) : r.ofTexts texts = given.map reread := by
  cases h with
  | absent =>
      unfold FieldRule.ofTexts
      split <;> rfl
  | scalar harray hspells =>
      rw [FieldRule.ofTexts_scalar harray, List.getLast?_singleton, Option.map_some, hspells.coerce,
        Option.map_some, hspells.notArray.1]
  | list harray htwo hspells =>
      rw [FieldRule.ofTexts_many harray (hspells.length_eq ▸ htwo), map_coerce_of_spells hspells, Option.map_some,
        reread]

theorem holds_iff {v : Value} (h : SentAs r (some v) texts) :
    r.Holds (some (reread v)) ↔ valueFits v = true := by
  cases h with
  | scalar harray hspells =>
      rw [hspells.notArray.1, hspells.notArray.2, FieldRule.holds_some hspells.isNull, if_neg (by simp [harray]),
        hspells.holds_iff]
  | list harray htwo hspells =>
      rw [reread, valueFits, FieldRule.holds_some rfl, if_pos harray, ← holds_iff_of_spells hspells]
      simp

end SentAs

theorem FieldRule.valueIn_eq_ofTexts {r : FieldRule NamedType} {part : Section} {req : Request}
    (hpart : part ≠ .body) (hscalar : part = .paths → r.array = false) :
    r.valueIn part req = r.ofTexts (req.textsOf part r.key) := by
  cases part with
  | body => exact absurd rfl hpart
  | query => rfl
  | headers => rfl
  | paths =>
      have htexts : req.pathParam? r.key = (req.textsOf .paths r.key).getLast? := rfl
      rw [FieldRule.valueIn, FieldRule.ofTexts_scalar (hscalar rfl), FieldRule.ofTexts_scalar (hscalar rfl), htexts]
      cases (req.textsOf .paths r.key).getLast? <;> rfl

/-! ### Sections as a whole -/

section Sections

variable {s : SectionRules NamedType} {given : Table Value} {req : Request}

theorem get?_decode_of_sends (hpart : s.part ≠ .body) (hkeys : (s.rules.map (·.key)).Nodup)
    (hpaths : s.part = .paths → ∀ r ∈ s.rules, r.array = false) (h : Sends s given req) (key : String) :
    (s.decode req).get? key = (given.get? key).map reread := by
  by_cases hkey : key ∈ s.rules.map (·.key)
  · obtain ⟨r, hr, rfl⟩ := List.mem_map.1 hkey
    rw [SectionRules.get?_decode hkeys hr,
      FieldRule.valueIn_eq_ofTexts hpart fun hpath => hpaths hpath r hr, (h.texts r hr).ofTexts]
  · have hnone : given.get? key = none := by
      rw [← Option.not_isSome_iff_eq_none]
      exact fun hsome => hkey (h.declared key hsome)
    rw [SectionRules.get?_decode_of_not_mem hkey, hnone, Option.map_none]

/-- Whether the integers among some values have 64 bits with a sign. -/
def AllFit (given : Table Value) : Prop := ∀ key v, given.get? key = some v → valueFits v = true

theorem decode_eq_iff_of_sends (hpart : s.part ≠ .body) (hkeys : (s.rules.map (·.key)).Nodup)
    (hpaths : s.part = .paths → ∀ r ∈ s.rules, r.array = false) (h : Sends s given req) :
    s.decode req = given ↔ AllFit given := by
  have hget := get?_decode_of_sends hpart hkeys hpaths h
  constructor
  · intro heq key v hv
    have hsame := hget key
    rw [heq, hv, Option.map_some, Option.some.injEq] at hsame
    exact reread_eq_iff.1 hsame.symm
  · intro hfit
    apply Table.ext_get?
    intro key
    rw [hget]
    cases hv : given.get? key with
    | none => rfl
    | some v => rw [Option.map_some, reread_eq_iff.2 (hfit key v hv)]

theorem holds_iff_of_sends (hpart : s.part ≠ .body) (hkeys : (s.rules.map (·.key)).Nodup)
    (hpaths : s.part = .paths → ∀ r ∈ s.rules, r.array = false) (h : Sends s given req) :
    s.Holds req ↔ AllFit given := by
  have hget := get?_decode_of_sends hpart hkeys hpaths h
  constructor
  · intro hholds key v hv
    obtain ⟨r, hr, rfl⟩ := List.mem_map.1 (h.declared key (by rw [hv]; rfl))
    have hrule := hholds r hr
    have htexts := h.texts r hr
    rw [hget, hv, Option.map_some] at hrule
    rw [hv] at htexts
    exact htexts.holds_iff.1 hrule
  · intro hfit r hr
    have htexts := h.texts r hr
    rw [hget]
    cases hv : given.get? r.key with
    | none =>
        have hrequired := h.required r hr
        rw [hv] at hrequired
        simpa using hrequired
    | some v =>
        rw [hv] at htexts
        exact htexts.holds_iff.2 (hfit _ v hv)

theorem validate_eq_ok : s.validate (s.decode req) = .ok () ↔ s.Holds req := by
  rw [← SectionRules.violations_eq_nil, SectionRules.validate]
  cases s.violations (s.decode req) <;> simp

/-- Values that are sent as texts, among whatever else, are decoded as they are and accepted, if and only if
their integers have 64 bits with a sign. -/
theorem sent_decoded_iff_integers_fit (hpart : s.part ≠ .body) (hkeys : (s.rules.map (·.key)).Nodup)
    (hpaths : s.part = .paths → ∀ r ∈ s.rules, r.array = false) (h : Sends s given req) :
    (s.decode req = given ↔ AllFit given)
      ∧ (s.validate (s.decode req) = .ok () ↔ AllFit given) := by
  exact ⟨decode_eq_iff_of_sends hpart hkeys hpaths h,
    validate_eq_ok.trans (holds_iff_of_sends hpart hkeys hpaths h)⟩

end Sections

def batchRules : SectionRules NamedType :=
  ⟨.headers, [{ key := "X-Ids", check := .integer, array := true }, { key := "X-Dry", check := .boolean },
    { key := "X-Note", check := .string, required := false }]⟩

def batch : Request where
  headers := [("x-ids", "-9223372036854775808"), ("accept", "7"), ("x-dry", "true"), ("X-IDS", "7")]

def batchValues : Table Value :=
  ⟨[("X-Dry", .bool true), ("X-Ids", .arr [.int (-9223372036854775808), .int 7])], by decide⟩

theorem sends_batch : Sends batchRules batchValues batch := by
  refine ⟨?_, ?_, ?_⟩
  · intro key hkey
    rw [← Table.mem_keys_iff] at hkey
    revert key
    decide
  · decide
  · have hids : SentAs { key := "X-Ids", check := .integer, array := true }
        (some (.arr [.int (-9223372036854775808), .int 7])) ["-9223372036854775808", "7"] :=
      .list rfl (by decide) (.cons (.integer _) (.cons (.integer _) .nil))
    have hdry : SentAs { key := "X-Dry", check := .boolean } (some (.bool true)) ["true"] :=
      .scalar rfl (.boolean true)
    simp only [batchRules, List.forall_mem_cons]
    exact ⟨hids, hdry, .absent, by simp⟩

theorem batch_decoded :
    Sends batchRules batchValues batch ∧ batchRules.decode batch = batchValues
      ∧ batchRules.validate (batchRules.decode batch) = .ok () := by
  have hfit : AllFit batchValues := by
    intro key v hv
    rw [← Table.mem_entries_iff] at hv
    have hall : ∀ e ∈ batchValues.entries, valueFits e.2 = true := by decide
    exact hall _ hv
  obtain ⟨hdecode, hvalidate⟩ := sent_decoded_iff_integers_fit (by decide) (by decide) (by decide) sends_batch
  exact ⟨sends_batch, hdecode.2 hfit, hvalidate.2 hfit⟩

/-- One more than the greatest integer of 64 bits with a sign. -/
theorem beyond_signed64_not_decoded :
    let s : SectionRules NamedType := ⟨.query, [{ key := "n", check := .integer }]⟩
    let given : Table Value := ⟨[("n", .int 9223372036854775808)], by decide⟩
    let req : Request := { query := [("n", "9223372036854775808")] }
    Sends s given req ∧ s.decode req ≠ given
      ∧ s.validate (s.decode req) = .error ⟨.query, "n must be an integer number"⟩ := by
  intro s given req
  have hsends : Sends s given req := by
    refine ⟨?_, by decide, ?_⟩
    · intro key hkey
      rw [← Table.mem_keys_iff] at hkey
      exact hkey
    · have hn : SentAs { key := "n", check := .integer } (some (.int 9223372036854775808)) ["9223372036854775808"] :=
        .scalar rfl (.integer _)
      exact List.forall_mem_singleton.2 hn
  have hfit : ¬ AllFit given := fun h => absurd (h "n" _ rfl) (by decide)
  exact ⟨hsends, (decode_eq_iff_of_sends (by decide) (by decide) (by decide) hsends).not.2 hfit, by decide +kernel⟩

end ApiContracts

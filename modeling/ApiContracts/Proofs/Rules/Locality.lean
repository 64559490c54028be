import ApiContracts.Proofs.Rules.Outcome
import ApiContracts.Proofs.Service.RawParams
import Mathlib.Logic.Relation

/-!
# One key of a section

Each key of a section is decoded on its own. A section has a declared key exactly if the request holds a value for
it, and which value that is depends on the rule of the key and on what the request sends under the key, in order
(`rawValues`). So a key keeps its value whatever is done to the entries of other names (`Edit`), one after another,
and whichever rules stand beside its own.
-/

namespace ApiContracts

open Json Text

/-! ### Entries of other names -/

section Edits

variable {α : Type} {own : String → Bool} {entries entries' : List (String × α)}

/-- One edit of a list of entries, at an entry of a name that is not one's own. -/
inductive Edit (own : String → Bool) : List (String × α) → List (String × α) → Prop where
  | add (e : String × α) (before after : List (String × α)) (he : own e.1 = false) :
      Edit own (before ++ after) (before ++ e :: after)
  | remove (e : String × α) (before after : List (String × α)) (he : own e.1 = false) :
      Edit own (before ++ e :: after) (before ++ after)
  | change (e e' : String × α) (before after : List (String × α)) (he : own e.1 = false) (he' : own e'.1 = false) :
      Edit own (before ++ e :: after) (before ++ e' :: after)
  | moveOn (e : String × α) (before between after : List (String × α)) (he : own e.1 = false) :
      Edit own (before ++ e :: (between ++ after)) (before ++ (between ++ e :: after))
  | moveBack (e : String × α) (before between after : List (String × α)) (he : own e.1 = false) :
      Edit own (before ++ (between ++ e :: after)) (before ++ e :: (between ++ after))

def Edits (own : String → Bool) : List (String × α) → List (String × α) → Prop := Relation.ReflTransGen (Edit own)

theorem Edit.filter_eq (h : Edit own entries entries') :
    entries.filter (fun e => own e.1) = entries'.filter fun e => own e.1 := by
  cases h with
  | add e before after he => simp [he]
  | remove e before after he => simp [he]
  | change e e' before after he he' => simp [he, he']
  | moveOn e before between after he => simp [he]
  | moveBack e before between after he => simp [he]

theorem Edits.filter_eq (h : Edits own entries entries') :
    entries.filter (fun e => own e.1) = entries'.filter fun e => own e.1 := by
  induction h with
  | refl => rfl
  | tail _ hlast ih => exact ih.trans hlast.filter_eq

end Edits

/-! ### What a request holds for a key -/

namespace Request

variable {req req' : Request} {part : Section} {key : String}

/-- The entries that a section takes its values from: the members of a body that is an object, elsewhere texts. -/
def rawEntries (req : Request) : Section → List (String × Value)
  | .body => match req.body with
    | some (.obj members) => members
    | _ => []
  | part => (req.entriesOf part).map fun e => (e.1, .str e.2)

/-- What a request sends for a key of a section, in order. -/
def rawValues (req : Request) (part : Section) (key : String) : List Value :=
  ((req.rawEntries part).filter fun e => part.names e.1 key).map (·.2)

/-- Whether a request holds a value for a key of a section: a path parameter, an entry of the query, a header in any
letter case, or a member of the body that is not null. -/
def HoldsValue (req : Request) : Section → String → Prop
  | .paths, key => ∃ text, (key, text) ∈ req.pathParams
  | .query, key => ∃ text, (key, text) ∈ req.query
  | .headers, key => ∃ name text, (name, text) ∈ req.headers ∧ sameLetters name key = true
  | .body, key => ∃ members v, req.body = some (.obj members) ∧ members.lookup key = some v ∧ v.isNull = false

theorem rawValues_texts (hpart : part ≠ .body) : req.rawValues part key = (req.textsOf part key).map .str := by
  have hentries : req.rawEntries part = (req.entriesOf part).map fun e => (e.1, .str e.2) := by
    cases part with
    | body => exact absurd rfl hpart
    | paths | query | headers => rfl
  rw [rawValues, hentries, textsOf, List.filter_map, List.map_map, List.map_map]
  rfl

theorem rawValues_eq_of_edits
    (h : Edits (fun name => part.names name key) (req.rawEntries part) (req'.rawEntries part)) :
    req.rawValues part key = req'.rawValues part key := by
  rw [rawValues, rawValues, h.filter_eq]

theorem member?_eq_head?_rawValues : req.body.bind (·.member? key) = (req.rawValues .body key).head? := by
  have hlookup : ∀ members : List (String × Value),
      members.lookup key = ((members.filter fun e => e.1 == key).map (·.2)).head? := by
    intro members
    induction members with
    | nil => rfl
    | cons e rest ih =>
        rw [lookup_cons_ite, ih]
        by_cases hkey : e.1 = key
        · simp [hkey]
        · simp [hkey, Ne.symm hkey]
  rw [rawValues, rawEntries]
  cases req.body with
  | none => rfl
  | some v =>
      cases v with
      | obj members => exact hlookup members
      | _ => rfl

theorem agree_of_rawValues_eq (h : req.rawValues part key = req'.rawValues part key) : req.Agree req' part key := by
  by_cases hpart : part = .body
  · subst hpart
    rw [Agree, member?_eq_head?_rawValues, member?_eq_head?_rawValues, h]
  · have htexts : req.textsOf part key = req'.textsOf part key := by
      rw [rawValues_texts hpart, rawValues_texts hpart] at h
      exact List.map_injective_iff.2 (fun _ _ => Value.str.inj) h
    cases part with
    | body => exact absurd rfl hpart
    | paths => exact congrArg List.getLast? htexts
    | query => exact htexts
    | headers => exact htexts

theorem holdsValue_iff_textsOf (hpart : part ≠ .body) : req.HoldsValue part key ↔ req.textsOf part key ≠ [] := by
  have htexts : req.textsOf part key ≠ [] ↔ ∃ e ∈ req.entriesOf part, part.names e.1 key = true := by
    simp [textsOf]
  rw [htexts]
  cases part with
  | body => exact absurd rfl hpart
  | paths | query | headers => simp [HoldsValue, entriesOf, Section.names]

end Request

theorem FieldRule.isSome_valueIn {r : FieldRule NamedType} {part : Section} {req : Request} :
    (r.valueIn part req).isSome ↔ req.HoldsValue part r.key := by
  have htexts : ∀ texts, (r.ofTexts texts).isSome ↔ texts ≠ [] := by
    intro texts
    rw [Option.isSome_iff_ne_none, ne_eq, ofTexts_eq_none]
  cases part with
  | body =>
      rw [valueIn, Request.HoldsValue]
      cases req.body with
      | none => simp
      | some v => cases v <;> simp [Value.member?, Option.any_eq_true]
  | paths =>
      have hlast : req.pathParam? r.key = (req.textsOf .paths r.key).getLast? := rfl
      rw [Request.holdsValue_iff_textsOf (by simp), valueIn, htexts, hlast]
      simp
  | query =>
      rw [Request.holdsValue_iff_textsOf (by simp), valueIn, htexts]
      rfl
  | headers =>
      rw [Request.holdsValue_iff_textsOf (by simp), valueIn, htexts]
      rfl

theorem SectionRules.mem_keys_decode {s : SectionRules NamedType} {req : Request}
    (hkeys : (s.rules.map (·.key)).Nodup) {key : String} :
    key ∈ (s.decode req).keys ↔ (∃ r ∈ s.rules, r.key = key) ∧ req.HoldsValue s.part key := by
  rw [Table.keys, Table.mem_keys_iff]
  constructor
  · intro hsome
    have hkey : key ∈ s.rules.map (·.key) := by
      by_contra hkey
      simp [get?_decode_of_not_mem hkey] at hsome
    obtain ⟨r, hr, rfl⟩ := List.mem_map.1 hkey
    rw [get?_decode hkeys hr] at hsome
    exact ⟨⟨r, hr, rfl⟩, FieldRule.isSome_valueIn.1 hsome⟩
  · rintro ⟨⟨r, hr, rfl⟩, hholds⟩
    rw [get?_decode hkeys hr]
    exact FieldRule.isSome_valueIn.2 hholds

/-- A section whose rules have different keys holds exactly the declared keys that the request holds a value for.
Under a key it holds the same for any two requests that send the same values for it, in particular if one comes from
the other by edits at other names, and the same beside any other rules. -/
theorem decoded_key_by_key (s : SectionRules NamedType) (req : Request) (hkeys : (s.rules.map (·.key)).Nodup) :
    (∀ key, key ∈ (s.decode req).keys ↔ (∃ r ∈ s.rules, r.key = key) ∧ req.HoldsValue s.part key)
      ∧ ∀ r ∈ s.rules, ∀ rules', r ∈ rules' → (rules'.map (·.key)).Nodup → ∀ req',
        let held := (s.decode req).get? r.key
        let held' := (SectionRules.decode ⟨s.part, rules'⟩ req').get? r.key
        (req.rawValues s.part r.key = req'.rawValues s.part r.key → held = held')
          ∧ (Edits (fun name => s.part.names name r.key) (req.rawEntries s.part) (req'.rawEntries s.part)
            → held = held') := by
  refine ⟨fun key => SectionRules.mem_keys_decode hkeys, ?_⟩
  intro r hr rules' hr' hkeys' req' held held'
  have hsame : req.rawValues s.part r.key = req'.rawValues s.part r.key → held = held' := by
    intro h
    calc held = r.valueIn s.part req := SectionRules.get?_decode hkeys hr
      _ = r.valueIn s.part req' := FieldRule.valueIn_congr (Request.agree_of_rawValues_eq h)
      _ = held' := (SectionRules.get?_decode (s := ⟨s.part, rules'⟩) hkeys' hr').symm
  exact ⟨hsame, fun hedits => hsame (Request.rawValues_eq_of_edits hedits)⟩

section Sample

def editedBatch : Request where
  headers := [("x-dry", "no"), ("x-ids", "-9223372036854775808"), ("X-IDS", "7"), ("x-note", "late")]

theorem edits_batch : Edits (fun name => Section.headers.names name "X-Ids") (batch.rawEntries .headers)
    (editedBatch.rawEntries .headers) := by
  let lowest : String × Value := ("x-ids", .str "-9223372036854775808")
  let seven : String × Value := ("X-IDS", .str "7")
  refine .tail (b := [("x-dry", .str "no"), lowest, seven]) (.tail (b := [("x-dry", .str "true"), lowest, seven])
    (.tail (b := [lowest, ("x-dry", .str "true"), seven]) (.single ?_) ?_) ?_) ?_
  · refine .remove ("accept", .str "7") [lowest] [_, _] ?_
    decide +kernel
  · refine .moveBack ("x-dry", .str "true") [] [lowest] [seven] ?_
    decide +kernel
  · refine .change ("x-dry", .str "true") ("x-dry", .str "no") [] [lowest, seven] ?_ ?_ <;> decide +kernel
  · refine .add ("x-note", .str "late") [_, lowest, seven] [] ?_
    decide +kernel

/-- The numbers of a batch do not change with the headers around them, nor beside other rules; a note comes in. -/
theorem batch_numbers_kept :
    let rules : List (FieldRule NamedType) :=
      [{ key := "X-Note", check := .string }, { key := "X-Ids", check := .integer, array := true }]
    let held := batchRules.decode batch
    let held' := SectionRules.decode ⟨.headers, rules⟩ editedBatch
    (batchRules.rules.map (·.key)).Nodup
      ∧ "X-Ids" ∈ held.keys ∧ "X-Note" ∉ held.keys ∧ "X-Note" ∈ held'.keys
      ∧ held.get? "X-Ids" = held'.get? "X-Ids" := by
  intro rules held held'
  have hkeys : (batchRules.rules.map (·.key)).Nodup := by decide
  have hkeys' : (rules.map (·.key)).Nodup := by decide
  obtain ⟨hmem, hlocal⟩ := decoded_key_by_key batchRules batch hkeys
  obtain ⟨hmem', -⟩ := decoded_key_by_key ⟨.headers, rules⟩ editedBatch hkeys'
  obtain ⟨-, hkept⟩ := hlocal { key := "X-Ids", check := .integer, array := true } (by simp [batchRules]) rules
    (by simp [rules]) hkeys' editedBatch
  refine ⟨hkeys, (hmem _).2 ⟨?_, ?_⟩, ?_, (hmem' _).2 ⟨?_, ?_⟩, hkept edits_batch⟩
  · simp [batchRules]
  · exact ⟨"x-ids", "-9223372036854775808", by simp [batch], by decide +kernel⟩
  · intro hnote
    obtain ⟨-, name, text, hheader, hname⟩ := (hmem "X-Note").1 hnote
    have hother : ∀ e ∈ batch.headers, sameLetters e.1 "X-Note" = false := by decide +kernel
    simp [hother _ hheader] at hname
  · simp [rules]
  · exact ⟨"x-note", "late", by simp [editedBatch], by decide +kernel⟩

end Sample

end ApiContracts

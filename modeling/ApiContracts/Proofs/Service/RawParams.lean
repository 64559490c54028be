import ApiContracts.Proofs.Rules.RoundTrip
import ApiContracts.Service.RawParams
import Mathlib.Data.List.Induction

/-!
# Raw parameters and decoded sections

A request reaches business code in two ways: decoded by the rules of a contract, or as raw parameters. The
first looks up each key among the entries of the request, the second puts all entries into tables, where a
later one takes the place of an earlier one or, in the query, joins it in a list. For a text the two come to
the same: both see the last one sent. What a section holds for a key is settled by the last rule of that key,
because rules of one key find texts for it or find none together.
-/

namespace ApiContracts

open Json Text

/-! ### The tables of raw parameters -/

theorem valuesOf_concat {key : String} {entries : List (String × String)} {e : String × String} :
    valuesOf key (entries ++ [e]) = valuesOf key entries ++ if e.1 = key then [e.2] else [] := by
  rw [valuesOf, List.filter_append, List.map_append, ← valuesOf]
  by_cases hkey : e.1 = key <;> simp [hkey]

namespace RawParams

variable {key : String} {entries : List (String × String)}

theorem get?_lastOf : (lastOf entries).get? key = (valuesOf key entries).getLast?.map .str := by
  induction entries using List.reverseRecOn with
  | nil => rfl
  | append_singleton entries e ih =>
      have hinsert : lastOf (entries ++ [e]) = (lastOf entries).insert e.1 (.str e.2) := by
        simp [lastOf, Table.ofList]
      rw [hinsert, Table.get?_insert, ih, valuesOf_concat]
      by_cases hkey : e.1 = key
      · simp [hkey]
      · simp [hkey, Ne.symm hkey]

/-- The value of a query key by all texts sent for it. -/
def collected : List String → Option Value
  | [] => none
  | [text] => some (.str text)
  | texts => some (.arr (texts.map .str))

theorem get?_addQuery {t : Table Value} {texts : List String} {text : String} (h : t.get? key = collected texts) :
    (addQuery t key text).get? key = collected (texts ++ [text]) := by
  rw [addQuery, Table.get?_insert, if_pos rfl, h]
  match texts with
  | [] => rfl
  | [first] => rfl
  | first :: second :: rest => simp [collected]

theorem get?_query (req : Request) : (ofRequest req).query.get? key = collected (req.queryValues key) := by
  have hfold : ∀ entries : List (String × String),
      (entries.foldl (fun t e => addQuery t e.1 e.2) .empty).get? key = collected (valuesOf key entries) := by
    intro entries
    induction entries using List.reverseRecOn with
    | nil => rfl
    | append_singleton entries e ih =>
        rw [List.foldl_append, List.foldl_cons, List.foldl_nil, valuesOf_concat]
        by_cases hkey : e.1 = key
        · subst hkey
          rw [if_pos rfl]
          exact get?_addQuery ih
        · rw [addQuery, Table.get?_insert, if_neg (Ne.symm hkey), if_neg hkey, List.append_nil, ih]
  exact hfold req.query

/-- The last element of a list of values; any other value stands for itself. -/
def lastElement : Value → Value
  | .arr items => items.getLast?.getD .null
  | v => v

theorem map_lastElement_collected {texts : List String} :
    (collected texts).map lastElement = texts.getLast?.map .str := by
  match texts with
  | [] => rfl
  | [text] => rfl
  | first :: second :: rest =>
      show some (((first :: second :: rest).map Value.str).getLast?.getD .null) = _
      rw [List.getLast?_map, List.getLast?_cons]
      rfl

end RawParams

theorem Request.headerValues_eq {req : Request} (hlower : ∀ h ∈ req.headers, lower h.1 = h.1) (name : String) :
    req.headerValues name = valuesOf (lower name) req.headers := by
  rw [headerValues, valuesOf]
  congr 1
  apply List.filter_congr
  intro h hh
  rw [sameLetters, hlower h hh]

/-! ### The last rule of a key -/

section LastRule

variable {part : Section} {req : Request}

theorem FieldRule.ofTexts_eq_none {r : FieldRule NamedType} {texts : List String} :
    r.ofTexts texts = none ↔ texts = [] := by
  unfold ofTexts
  split
  · split <;> simp_all
  · simp

theorem FieldRule.valueIn_eq_none {q r : FieldRule NamedType} (hkey : q.key = r.key)
    (h : r.valueIn part req = none) : q.valueIn part req = none := by
  cases part with
  | body => rwa [valueIn, hkey]
  | paths | query | headers =>
      simp only [valueIn, ofTexts_eq_none] at h ⊢
      rwa [hkey]

theorem get?_foldl_decodeRule_eq_none {r : FieldRule NamedType} {rules : List (FieldRule NamedType)}
    {t : Table Value} (h : r.valueIn part req = none) (ht : t.get? r.key = none) :
    (rules.foldl (decodeRule part req) t).get? r.key = none := by
  induction rules generalizing t with
  | nil => exact ht
  | cons q rest ih =>
      rw [List.foldl_cons]
      apply ih
      rw [get?_decodeRule]
      split
      · next hkey => rw [FieldRule.valueIn_eq_none hkey.symm h, Option.none_or, ht]
      · exact ht

theorem SectionRules.get?_decode_last {r : FieldRule NamedType} {before after : List (FieldRule NamedType)}
    (hafter : ∀ q ∈ after, q.key ≠ r.key) :
    (SectionRules.decode ⟨part, before ++ r :: after⟩ req).get? r.key = r.valueIn part req := by
  have hkey : r.key ∉ after.map (·.key) := by
    intro hmem
    obtain ⟨q, hq, heq⟩ := List.mem_map.1 hmem
    exact hafter q hq heq
  rw [decode_eq_foldl, List.foldl_append, List.foldl_cons, get?_foldl_decodeRule_of_not_mem hkey,
    get?_decodeRule, if_pos rfl]
  cases hvalue : r.valueIn part req with
  | some v => rfl
  | none => rw [Option.none_or, get?_foldl_decodeRule_eq_none hvalue Table.get?_empty]

end LastRule

/-! ### One text in two forms -/

theorem FieldRule.ofTexts_text {r : FieldRule NamedType} (hcheck : r.check = .string) (harray : r.array = false)
    (texts : List String) : r.ofTexts texts = texts.getLast?.map .str := by
  rw [ofTexts_scalar harray, hcheck]
  rfl

/-- What a section holds for a text is what the raw parameters hold: the last value of a path parameter or of a
header, the value of a query key or the last of its list, and the member of the body unless it is null. -/
theorem decoded_text_eq_raw (req : Request) (hlower : ∀ h ∈ req.headers, lower h.1 = h.1)
    (before after : List (FieldRule NamedType)) (r : FieldRule NamedType) (hcheck : r.check = .string)
    (harray : r.array = false) (hafter : ∀ q ∈ after, q.key ≠ r.key) :
    let held (part : Section) := (SectionRules.decode ⟨part, before ++ r :: after⟩ req).get? r.key
    let raw := RawParams.ofRequest req
    held .paths = raw.paths.get? r.key
      ∧ held .headers = raw.headers.get? (lower r.key)
      ∧ held .query = (raw.query.get? r.key).map RawParams.lastElement
      ∧ held .body = (raw.body.member? r.key).filter (!·.isNull) := by
  intro held raw
  have hheld : ∀ part, held part = r.valueIn part req := fun part => SectionRules.get?_decode_last hafter
  have htexts := FieldRule.ofTexts_text hcheck harray
  refine ⟨?_, ?_, ?_, ?_⟩
  · have hpath : raw.paths.get? r.key = (req.pathParam? r.key).map .str := RawParams.get?_lastOf
    rw [hheld, FieldRule.valueIn, htexts, hpath]
    cases req.pathParam? r.key <;> rfl
  · have hheader : raw.headers.get? (lower r.key) = (valuesOf (lower r.key) req.headers).getLast?.map .str :=
      RawParams.get?_lastOf
    rw [hheld, FieldRule.valueIn, htexts, hheader, Request.headerValues_eq hlower]
  · rw [hheld, FieldRule.valueIn, htexts, RawParams.get?_query, RawParams.map_lastElement_collected]
  · have hbody : raw.body.member? r.key = req.body.bind (·.member? r.key) := by
      show (req.body.getD .null).member? r.key = _
      cases req.body <;> rfl
    rw [hheld, FieldRule.valueIn, hbody]

/-- A key that repeats in every section, in another letter case among the headers, behind a rule for a list. -/
theorem repeated_text_eq_raw :
    let req : Request :=
      { pathParams := [("Id", "1"), ("Id", "2")], query := [("Id", "a"), ("n", "0"), ("Id", "b")]
        headers := [("id", "x"), ("x-id", "y"), ("id", "z")], body := some (.obj [("Id", .int 7)]) }
    let held (part : Section) :=
      (SectionRules.decode ⟨part, [⟨"Id", .integer, true, true⟩, ⟨"Id", .string, true, false⟩,
        ⟨"n", .string, true, false⟩]⟩ req).get? "Id"
    (∀ h ∈ req.headers, lower h.1 = h.1)
      ∧ held .paths = some (.str "2")
      ∧ held .headers = some (.str "z")
      ∧ (RawParams.ofRequest req).query.get? "Id" = some (.arr [.str "a", .str "b"])
      ∧ held .query = some (.str "b")
      ∧ held .body = some (.int 7) := by
  intro req held
  have hlower : ∀ h ∈ req.headers, lower h.1 = h.1 := by decide +kernel
  obtain ⟨hpaths, hheaders, hquery, hbody⟩ :=
    decoded_text_eq_raw req hlower [⟨"Id", .integer, true, true⟩] [⟨"n", .string, true, false⟩]
      ⟨"Id", .string, true, false⟩ rfl rfl (by decide)
  exact ⟨hlower, hpaths, hheaders, rfl, hquery, hbody⟩

end ApiContracts

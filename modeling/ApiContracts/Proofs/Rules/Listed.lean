import ApiContracts.Proofs.Rules.Outcome
import ApiContracts.Proofs.Service.RawParams
import ApiContracts.Proofs.Text.Pieces

/-!
# Lists in the query and in headers

A list can be sent in two ways: under a key that repeats, with a text for each element, or under one key, in a
text that names the elements between commas. A rule for an array reads the two apart, and cuts a text and drops
what is empty only where it is alone. So the two come to the same for elements that are not empty and hold no
comma: a single text is cut into the elements again, and several are taken as they are. A list of one element is
sent alike in both ways.
-/

namespace ApiContracts

open Json Text

/-- Whether one text can name these: there are some, none is empty, and none holds a comma. -/
structure Listable (texts : List String) : Prop where
  ne_nil : texts ≠ []
  ne_empty : ∀ t ∈ texts, t ≠ ""
  comma_not_mem : ∀ t ∈ texts, ',' ∉ t.toList

namespace FieldRule

variable {r : FieldRule NamedType} {texts : List String}

theorem ofTexts_listed (harray : r.array = true) (h : Listable texts) :
    r.ofTexts [",".intercalate texts] = some (.arr (texts.map r.check.coerce)) := by
  have hcut : splitText ',' (",".intercalate texts) = texts :=
    splitText_intercalate rfl h.ne_nil h.comma_not_mem
  have hkept : texts.filter (!·.isEmpty) = texts := by
    rw [List.filter_eq_self]
    intro t ht
    simpa using h.ne_empty t ht
  have hsingle : r.ofTexts [",".intercalate texts]
      = some (.arr (((splitText ',' (",".intercalate texts)).filter (!·.isEmpty)).map r.check.coerce)) := by
    rw [ofTexts, if_pos harray]
  rw [hsingle, hcut, hkept]

theorem ofTexts_repeated (harray : r.array = true) (h : Listable texts) :
    r.ofTexts texts = some (.arr (texts.map r.check.coerce)) := by
  match texts, h with
  | [], h => exact absurd rfl h.ne_nil
  | [text], h =>
      have hlisted := ofTexts_listed harray h
      rwa [String.intercalate_singleton] at hlisted
  | first :: second :: rest, _ => exact ofTexts_many harray (by simp)

end FieldRule

/-- A rule for an array in the query or in headers, given the elements of a list under a key that repeats or all
in one text with commas between, reads the same array, element by element what its check makes of the texts.
A section holds this array if the rule is the last of its key, and holds all the same if the requests send
the same texts for its other keys. -/
theorem listed_decoded_as_repeated {part : Section} (hpart : part = .query ∨ part = .headers)
    {r : FieldRule NamedType} (harray : r.array = true) {texts : List String} (h : Listable texts)
    {repeated listed : Request} (hrepeated : repeated.textsOf part r.key = texts)
    (hlisted : listed.textsOf part r.key = [",".intercalate texts]) :
    (∀ req ∈ [repeated, listed], r.valueIn part req = some (.arr (texts.map r.check.coerce)))
      ∧ (∀ before after, (∀ q ∈ after, q.key ≠ r.key) → ∀ req ∈ [repeated, listed],
          ((SectionRules.mk part (before ++ r :: after)).decode req).get? r.key
            = some (.arr (texts.map r.check.coerce)))
      ∧ ∀ rules, (∀ q ∈ rules, q.key = r.key → q.array = true) →
          (∀ q ∈ rules, q.key ≠ r.key → repeated.textsOf part q.key = listed.textsOf part q.key) →
            (SectionRules.mk part rules).decode repeated = (SectionRules.mk part rules).decode listed := by
  have hvalue (q : FieldRule NamedType) (req : Request) : q.valueIn part req = q.ofTexts (req.textsOf part q.key) := by
    rcases hpart with rfl | rfl <;> rfl
  have hread (q : FieldRule NamedType) (hkey : q.key = r.key) (hq : q.array = true) :
      ∀ req ∈ [repeated, listed], q.valueIn part req = some (.arr (texts.map q.check.coerce)) := by
    intro req hreq
    rw [hvalue, hkey]
    rcases List.mem_pair.1 hreq with rfl | rfl
    · rw [hrepeated]
      exact FieldRule.ofTexts_repeated hq h
    · rw [hlisted]
      exact FieldRule.ofTexts_listed hq h
  refine ⟨hread r rfl harray, ?_, ?_⟩
  · intro before after hafter req hreq
    rw [SectionRules.get?_decode_last hafter]
    exact hread r rfl harray req hreq
  · intro rules harrays hothers
    apply SectionRules.decode_congr_of_valueIn
    intro q hq
    show q.valueIn part repeated = q.valueIn part listed
    by_cases hkey : q.key = r.key
    · rw [hread q hkey (harrays q hq hkey) repeated (by simp), hread q hkey (harrays q hq hkey) listed (by simp)]
    · rw [hvalue, hvalue, hothers q hq hkey]

/-- Numbers of which one is no number, in a header that repeats in several spellings or stands once. -/
theorem header_listed_as_repeated :
    let ids : FieldRule NamedType := ⟨"X-Ids", .integer, true, true⟩
    let note : FieldRule NamedType := ⟨"X-Note", .string, false, false⟩
    let repeated : Request := { headers := [("x-ids", "7"), ("x-note", "a,b"), ("X-IDS", "x"), ("x-ids", " -3 ")] }
    let listed : Request := { headers := [("x-note", "a,b"), ("X-Ids", "7,x, -3 ")] }
    Listable ["7", "x", " -3 "] ∧ repeated.textsOf .headers "X-Ids" = ["7", "x", " -3 "]
      ∧ listed.textsOf .headers "X-Ids" = ["7,x, -3 "]
      ∧ (SectionRules.decode ⟨.headers, [ids, note]⟩ listed).get? "X-Ids"
        = some (.arr [.int 7, .str "x", .int (-3)])
      ∧ SectionRules.decode ⟨.headers, [ids, note]⟩ repeated = SectionRules.decode ⟨.headers, [ids, note]⟩ listed := by
  intro ids note repeated listed
  have hlistable : Listable ["7", "x", " -3 "] := ⟨by decide, by decide, by decide⟩
  have hrepeated : repeated.textsOf .headers "X-Ids" = ["7", "x", " -3 "] := by decide +kernel
  have hlisted : listed.textsOf .headers "X-Ids" = ["7,x, -3 "] := by decide +kernel
  obtain ⟨-, hheld, hsame⟩ := listed_decoded_as_repeated (r := ids) (Or.inr rfl) rfl hlistable hrepeated hlisted
  refine ⟨hlistable, hrepeated, hlisted, ?_, ?_⟩
  · exact hheld [] [note] (by decide) listed (by simp)
  · exact hsame [ids, note] (by decide) (by decide +kernel)

end ApiContracts

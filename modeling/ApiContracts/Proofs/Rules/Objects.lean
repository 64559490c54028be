import ApiContracts.Proofs.Json.Extent
import ApiContracts.Proofs.Rules.Listed
import ApiContracts.Sample.UserApi
import Mathlib

/-!
# Objects in the query and in headers

A list of objects is sent under a key that repeats, with the text of an object each time. Several texts are taken
as they are, so the objects arrive whole and in order. A text that is alone is cut at its commas, whatever they
separate: it arrives as its object only if it holds none. Since a text that is read as an object has braces at its
ends, a comma in it has something on either side, and what is cut is never a list of one element again.
-/

namespace ApiContracts

open Json Text

theorem jsonOf?_eq_some {text : String} {v : Value} : jsonOf? text = some v ↔ Value.ofString text = .ok v := by
  unfold jsonOf?
  cases Value.ofString text <;> simp [Except.toOption]

/-- Whether a text is read as a value, and this is an object. -/
def TellsObject (text : String) (v : Value) : Prop := jsonOf? text = some v ∧ ∃ members, v = .obj members

namespace TellsObject

variable {text : String} {v : Value}

theorem ne_empty (h : TellsObject text v) : text ≠ "" := by
  rintro rfl
  have hempty : (jsonOf? "").isNone = true := by decide +kernel
  rw [h.1] at hempty
  cases hempty

theorem ne_comma (h : TellsObject text v) (rest : List Char) :
    text.toList ≠ ',' :: rest ∧ text.toList ≠ rest ++ [','] := by
  obtain ⟨hread, members, rfl⟩ := h
  obtain ⟨hfirst, hlast⟩ := ends_of_obj (jsonOf?_eq_some.1 hread)
  rw [bytesOf_eq_encode] at hfirst hlast
  constructor
  · intro hstart
    have hbytes : encode text.toList = 0x2c :: encode rest := by
      rw [hstart]
      exact encode_append [','] rest
    exact absurd (hfirst _ _ hbytes) (by decide)
  · intro hend
    have hbytes : encode text.toList = encode rest ++ [0x2c] := by
      rw [hend]
      exact encode_append rest [',']
    exact absurd (hlast _ _ hbytes) (by decide)

end TellsObject

/-- The values of the parts of a text between its commas. A part that is no JSON stays the text it is. -/
def readApart (text : String) : List Value :=
  ((splitText ',' text).filter (!·.isEmpty)).map fun piece => (jsonOf? piece).getD (.str piece)

theorem two_le_length_readApart {text : String} {v : Value} (h : TellsObject text v) (hcomma : ',' ∈ text.toList) :
    2 ≤ (readApart text).length := by
  rw [readApart, List.length_map]
  exact two_le_length_filter_splitText hcomma (fun rest => (h.ne_comma rest).1) fun rest => (h.ne_comma rest).2

theorem map_coerce_of_tellsObject {t : NamedType} {texts : List String} {objects : List Value}
    (h : List.Forall₂ TellsObject texts objects) : texts.map (Check.nested t).coerce = objects := by
  have hcoerce (text : String) : (Check.nested t).coerce text = (jsonOf? text).getD (.str text) := rfl
  induction h with
  | nil => rfl
  | cons hread _ ih => rw [List.map_cons, hcoerce, hread.1, Option.getD_some, ih]

section Objects

variable {r : FieldRule NamedType} {t : NamedType} {objects : List Value}

theorem FieldRule.ofTexts_lone (hcheck : r.check = .nested t) (harray : r.array = true) (text : String) :
    r.ofTexts [text] = some (.arr (readApart text)) := by
  rw [ofTexts, if_pos harray, hcheck]
  rfl

theorem FieldRule.ofTexts_objects (hcheck : r.check = .nested t) (harray : r.array = true) {texts : List String}
    (hsent : List.Forall₂ TellsObject texts objects) (hne : objects ≠ [])
    (hwhole : ∀ text, texts = [text] → ',' ∉ text.toList) : r.ofTexts texts = some (.arr objects) := by
  have hread : r.ofTexts texts = some (.arr (texts.map r.check.coerce)) := by
    match texts, hsent with
    | [], .nil => exact absurd rfl hne
    | [text], .cons hobject .nil =>
        have hlistable : Listable [text] := ⟨by simp, by simpa using hobject.ne_empty, by simpa using hwhole⟩
        exact FieldRule.ofTexts_repeated harray hlistable
    | first :: second :: rest, _ => exact FieldRule.ofTexts_many harray (by simp)
  rw [hread, hcheck, map_coerce_of_tellsObject hsent]

/-- Texts of objects, sent for a rule for a list of objects, are read as these objects in order, unless there is
one text only and it holds a comma. Then its parts are read, each by itself, and there are two of them at least.
A section holds what is read if the rule is the last of its key. -/
theorem objects_arrive_iff_uncut {part : Section} (hpart : part = .query ∨ part = .headers)
    (hcheck : r.check = .nested t) (harray : r.array = true) {req : Request} (hne : objects ≠ [])
    (hsent : List.Forall₂ TellsObject (req.textsOf part r.key) objects) :
    (r.valueIn part req = some (.arr objects) ↔ ∀ text, req.textsOf part r.key = [text] → ',' ∉ text.toList)
      ∧ (∀ text, req.textsOf part r.key = [text] → ',' ∈ text.toList →
          r.valueIn part req = some (.arr (readApart text)) ∧ 2 ≤ (readApart text).length)
      ∧ ∀ before after, (∀ q ∈ after, q.key ≠ r.key) →
          ((SectionRules.mk part (before ++ r :: after)).decode req).get? r.key = r.valueIn part req := by
  have hvalue : r.valueIn part req = r.ofTexts (req.textsOf part r.key) := by
    rcases hpart with rfl | rfl <;> rfl
  have hcut : ∀ text, req.textsOf part r.key = [text] → ',' ∈ text.toList →
      r.valueIn part req = some (.arr (readApart text)) ∧ 2 ≤ (readApart text).length := by
    intro text htext hcomma
    rw [hvalue, htext, FieldRule.ofTexts_lone hcheck harray]
    rw [htext] at hsent
    obtain ⟨v, -, hobject, -, -⟩ := List.forall₂_cons_left_iff.1 hsent
    exact ⟨rfl, two_le_length_readApart hobject hcomma⟩
  refine ⟨⟨?_, ?_⟩, hcut, fun before after hafter => SectionRules.get?_decode_last hafter⟩
  · intro hwhole text htext hcomma
    obtain ⟨hapart, htwo⟩ := hcut text htext hcomma
    rw [hwhole, Option.some.injEq, Value.arr.injEq] at hapart
    have hone : objects.length = 1 := by rw [← hsent.length_eq, htext, List.length_singleton]
    rw [← hapart] at htwo
    omega
  · intro hwhole
    rw [hvalue]
    exact FieldRule.ofTexts_objects hcheck harray hsent hne hwhole

end Objects

section Sample

def profileRule : FieldRule NamedType :=
  { key := "X-Profile", check := .nested (.ofShape Sample.UserApi.types "Profile"), array := true }

def profiles : Request where
  headers := [("x-profile", "\x7b\"bio\":\"a,b\"\x7d"), ("accept", "1,2"),
    ("X-PROFILE", " \x7b\"vip\": true, \"bio\": \"\"\x7d ")]

theorem profiles_arrive :
    let objects := [Value.obj [("bio", .str "a,b")], .obj [("bio", .str ""), ("vip", .bool true)]]
    List.Forall₂ TellsObject (profiles.textsOf .headers profileRule.key) objects
      ∧ (SectionRules.decode ⟨.headers, [profileRule]⟩ profiles).get? "X-Profile" = some (.arr objects) := by
  intro objects
  have htexts : profiles.textsOf .headers profileRule.key
      = ["\x7b\"bio\":\"a,b\"\x7d", " \x7b\"vip\": true, \"bio\": \"\"\x7d "] := by decide +kernel
  have hsent : List.Forall₂ TellsObject (profiles.textsOf .headers profileRule.key) objects := by
    rw [htexts]
    exact .cons ⟨by cbv, _, rfl⟩ (.cons ⟨by cbv, _, rfl⟩ .nil)
  obtain ⟨hwhole, -, hheld⟩ := objects_arrive_iff_uncut (Or.inr rfl) rfl rfl (List.cons_ne_nil _ _) hsent
  refine ⟨hsent, (hheld [] [] (by simp)).trans (hwhole.2 ?_)⟩
  simp [htexts]

def loneProfile : Request where
  headers := [("x-profile", "\x7b\"bio\":\"a,b\"\x7d")]

/-- The first of two profiles, sent alone, is cut inside its text. -/
theorem lone_profile_cut :
    let held := (SectionRules.decode ⟨.headers, [profileRule]⟩ loneProfile).get? "X-Profile"
    loneProfile.textsOf .headers "X-Profile" = ["\x7b\"bio\":\"a,b\"\x7d"]
      ∧ TellsObject "\x7b\"bio\":\"a,b\"\x7d" (.obj [("bio", .str "a,b")])
      ∧ held = some (.arr [.str "\x7b\"bio\":\"a", .str "b\"\x7d"])
      ∧ held ≠ some (.arr [.obj [("bio", .str "a,b")]]) := by
  intro held
  have htexts : loneProfile.textsOf .headers profileRule.key = ["\x7b\"bio\":\"a,b\"\x7d"] := by decide +kernel
  have hparts : readApart "\x7b\"bio\":\"a,b\"\x7d" = [.str "\x7b\"bio\":\"a", .str "b\"\x7d"] := by cbv
  have hheld : held = some (.arr [.str "\x7b\"bio\":\"a", .str "b\"\x7d"]) := by
    have hvalue : held = profileRule.valueIn .headers loneProfile :=
      SectionRules.get?_decode (s := ⟨.headers, [profileRule]⟩) (by decide) (List.mem_singleton_self _)
    rw [hvalue, FieldRule.valueIn_eq_ofTexts (by decide) (by decide), htexts, FieldRule.ofTexts_lone rfl rfl, hparts]
  refine ⟨htexts, ⟨by cbv, _, rfl⟩, hheld, ?_⟩
  rw [hheld]
  simp

end Sample

end ApiContracts

import ApiContracts.Proofs.Service.RawParams

/-!
# The value of a header

A header may be sent more than once, in any letter case. Whoever asks the request for it is given the first text
sent for it, and a rule for a text takes the last one. Neither depends on the letter case, and both find nothing
together; so the two part exactly where the first entry of the header and its last one hold different texts. For a
path parameter there is no such difference, since a rule asks the request.
-/

namespace ApiContracts

open Json Text

namespace Request

variable {req : Request} {name text : String}

/-- Whether a text is that of the first entry of a header. -/
def FirstValue (req : Request) (name text : String) : Prop :=
  ∃ before n after, req.headers = before ++ (n, text) :: after ∧ sameLetters n name = true
    ∧ ∀ e ∈ before, sameLetters e.1 name = false

def LastValue (req : Request) (name text : String) : Prop :=
  ∃ before n after, req.headers = before ++ (n, text) :: after ∧ sameLetters n name = true
    ∧ ∀ e ∈ after, sameLetters e.1 name = false

theorem header?_eq_some : req.header? name = some text ↔ req.FirstValue name text := by
  rw [header?, headerValues, List.head?_map, List.head?_filter, Option.map_eq_some_iff]
  constructor
  · rintro ⟨⟨n, text⟩, hfind, rfl⟩
    obtain ⟨hn, before, after, hsplit, hbefore⟩ := List.find?_eq_some_iff_append.1 hfind
    exact ⟨before, n, after, hsplit, hn, by simpa using hbefore⟩
  · rintro ⟨before, n, after, hsplit, hn, hbefore⟩
    exact ⟨(n, text), List.find?_eq_some_iff_append.2 ⟨hn, before, after, hsplit, by simpa using hbefore⟩, rfl⟩

theorem getLast?_headerValues_eq_some : (req.headerValues name).getLast? = some text ↔ req.LastValue name text := by
  rw [headerValues, List.getLast?_map, List.getLast?_filter, Option.map_eq_some_iff]
  constructor
  · rintro ⟨⟨n, text⟩, hfind, rfl⟩
    obtain ⟨hn, after, before, hsplit, hafter⟩ := List.find?_eq_some_iff_append.1 hfind
    refine ⟨before.reverse, n, after.reverse, ?_, hn, by simpa using hafter⟩
    rw [List.reverse_eq_iff.1 hsplit]
    simp
  · rintro ⟨before, n, after, hsplit, hn, hafter⟩
    have hreverse : req.headers.reverse = after.reverse ++ (n, text) :: before.reverse := by
      rw [hsplit]
      simp
    exact ⟨(n, text), List.find?_eq_some_iff_append.2 ⟨hn, _, _, hreverse, by simpa using hafter⟩, rfl⟩

/-- The letter case in which a header is asked for does not matter. -/
theorem headerValues_congr {name' : String} (h : sameLetters name name' = true) :
    req.headerValues name = req.headerValues name' := by
  have hlower : lower name = lower name' := eq_of_beq h
  unfold headerValues sameLetters
  rw [hlower]

theorem getLast?_eq_head?_iff : (req.headerValues name).getLast? = req.header? name
    ↔ ∀ first last, req.FirstValue name first → req.LastValue name last → first = last := by
  simp only [← header?_eq_some, ← getLast?_headerValues_eq_some, header?]
  cases req.headerValues name with
  | nil => simp
  | cons v rest =>
      rw [List.getLast?_cons, List.head?_cons]
      simp [eq_comm]

end Request

/-- Asked for a header, in any letter case, a request gives the first text sent for it; a rule for a text holds the
last one. The two are absent together, and are the same exactly if the first entry of the header and the last one
hold the same text. For a path parameter they always are. -/
theorem header_readers_agree_iff (req : Request) (before after : List (FieldRule NamedType)) (r : FieldRule NamedType)
    (hcheck : r.check = .string) (harray : r.array = false) (hafter : ∀ q ∈ after, q.key ≠ r.key) {name : String}
    (hname : sameLetters name r.key = true) :
    let held (part : Section) := (SectionRules.decode ⟨part, before ++ r :: after⟩ req).get? r.key
    (held .headers = none ↔ req.header? name = none)
      ∧ (∀ text, req.header? name = some text ↔ req.FirstValue r.key text)
      ∧ (∀ v, held .headers = some v ↔ ∃ text, v = .str text ∧ req.LastValue r.key text)
      ∧ (held .headers = (req.header? name).map .str
          ↔ ∀ first last, req.FirstValue r.key first → req.LastValue r.key last → first = last)
      ∧ held .paths = (req.pathParam? r.key).map .str := by
  intro held
  have hheld : ∀ part, held part = r.valueIn part req := fun part => SectionRules.get?_decode_last hafter
  have htexts := FieldRule.ofTexts_text hcheck harray
  have hheader : held .headers = (req.headerValues r.key).getLast?.map .str := by
    rw [hheld]
    exact htexts _
  have hasked : req.header? name = req.header? r.key := congrArg List.head? (Request.headerValues_congr hname)
  rw [hasked, hheader]
  refine ⟨?_, fun text => Request.header?_eq_some, ?_, ?_, ?_⟩
  · rw [Option.map_eq_none_iff, Request.header?, List.getLast?_eq_none_iff, List.head?_eq_none_iff]
  · intro v
    rw [Option.map_eq_some_iff]
    constructor
    · rintro ⟨text, hlast, rfl⟩
      exact ⟨text, rfl, Request.getLast?_headerValues_eq_some.1 hlast⟩
    · rintro ⟨text, rfl, hlast⟩
      exact ⟨text, Request.getLast?_headerValues_eq_some.2 hlast, rfl⟩
  · have hinj : Function.Injective Value.str := fun _ _ => Value.str.inj
    rw [(Option.map_injective hinj).eq_iff, Request.getLast?_eq_head?_iff]
  · rw [hheld]
    show r.ofTexts (req.pathParam? r.key).toList = _
    rw [htexts]
    cases req.pathParam? r.key <;> rfl

section Sample

def tenantRule : FieldRule NamedType := { key := "X-Tenant", check := .string }

/-- A tenant sent three times, the last time as the first time, and asked for in capitals. -/
theorem tenant_readers_agree :
    let req : Request :=
      { headers := [("host", "a"), ("x-tenant", "acme"), ("X-Tenant", "apex"), ("X-TENANT", "acme"), ("accept", "b")] }
    sameLetters "X-TENANT" "X-Tenant" = true ∧ req.header? "X-TENANT" = some "acme"
      ∧ (SectionRules.decode ⟨.headers, [{ key := "n", check := .integer }, tenantRule]⟩ req).get? "X-Tenant"
        = some (.str "acme") := by
  intro req
  have hname : sameLetters "X-TENANT" "X-Tenant" = true := by decide +kernel
  obtain ⟨-, hfirst, hlast, -, -⟩ :=
    header_readers_agree_iff req [{ key := "n", check := .integer }] [] tenantRule rfl rfl (by simp) hname
  refine ⟨hname, (hfirst "acme").2 ?_, (hlast _).2 ⟨"acme", rfl, ?_⟩⟩
  · exact ⟨[("host", "a")], "x-tenant", _, rfl, by decide +kernel, by decide +kernel⟩
  · exact ⟨[("host", "a"), ("x-tenant", "acme"), ("X-Tenant", "apex")], "X-TENANT", _, rfl, by decide +kernel,
      by decide +kernel⟩

/-- A tenant sent twice is one for whoever asks and another one for the rule. -/
theorem tenant_readers_part :
    let req : Request := { headers := [("x-tenant", "acme"), ("x-tenant", "apex")] }
    req.header? "X-Tenant" = some "acme"
      ∧ (SectionRules.decode ⟨.headers, [tenantRule]⟩ req).get? "X-Tenant" = some (.str "apex") := by
  intro req
  have hvalues : req.headerValues "X-Tenant" = ["acme", "apex"] := by decide +kernel
  have hheld : (SectionRules.decode ⟨.headers, [tenantRule]⟩ req).get? "X-Tenant" = tenantRule.valueIn .headers req :=
    SectionRules.get?_decode (s := ⟨.headers, [tenantRule]⟩) (by decide) (List.mem_singleton_self _)
  refine ⟨by rw [Request.header?, hvalues]; rfl, ?_⟩
  rw [hheld]
  show tenantRule.ofTexts (req.headerValues "X-Tenant") = _
  rw [hvalues]
  rfl

end Sample

end ApiContracts

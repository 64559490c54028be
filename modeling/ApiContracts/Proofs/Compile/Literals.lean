import ApiContracts.Proofs.Compile.Packaging
import ApiContracts.Proofs.Text.Literal

/-!
# Keys in the emitted source

A key is written as a literal wherever the emitted source refers to it: the key of an endpoint in its contract and
in the look-up of the server, the key of a field in its rule and, if its name cannot be the key, in the rename of
its declaration. All four quote it alike, so each place reads as the key of the description, whatever characters
that has. A request is then looked up, decoded and read under one and the same key.
-/

namespace ApiContracts.Compile

open Text

namespace Contract

def ruleLine (f : SectionField) : String := s!"    {f.rule.expression},"

/-- The lines of a field in a contract, all of which tell its key: the first literal of its rule's line, the one of
its rename, and what its declaration is called on the wire. -/
structure TellsField (c : Contract) (f : Field) (d : SectionField) : Prop where
  ruled : ruleLine d ∈ c.lines
  rule : ∃ after, firstLiteral? (ruleLine d) = some ("    FieldRule::new(", f.key, ", " ++ after)
  declared : ∀ line ∈ fieldLines d, line ∈ c.lines
  rename : ∀ line ∈ renameLines d, firstLiteral? line = some ("    #[serde(rename = ", f.key, ")]")
  wire : serializedName? (fieldLines d) = some f.key

/-- The lines of a contract that tell the keys of its endpoint, in full mode field by field. -/
structure TellsKeys (c : Contract) (e : Endpoint) : Prop where
  named : c.endpointLine ∈ c.lines
  endpoint : firstLiteral? c.endpointLine = some ("    const ENDPOINT: &'static str = ", e.key, ";")
  sections : List.Forall₂ (fun part s => s.part = part ∧ List.Forall₂ c.TellsField (e.fieldsOf part) s.fields)
    (declaredParts c.config.mode e) c.sections

/-! ### Where the lines stand -/

theorem mem_lines_of_requestLines {c : Contract} {line : String} (h : line ∈ c.requestLines) : line ∈ c.lines := by
  simp [lines, h]

theorem endpointLine_mem (c : Contract) : c.endpointLine ∈ c.lines := by
  simp [lines]

section Sections

variable {c : Contract} (hfull : c.isMinimal = false) {s : SectionType} (hs : s ∈ c.sections) {d : SectionField}
  (hd : d ∈ s.fields)
include hfull hs hd

theorem ruleLine_mem : ruleLine d ∈ c.lines := by
  have hrule : ruleLine d ∈ rulesLines s := by
    rw [rulesLines, List.mem_append, List.mem_append]
    exact Or.inl (Or.inr (List.mem_map_of_mem hd))
  have hrules : ruleLine d ∈ c.sections.flatMap rulesLines := List.mem_flatMap_of_mem hs hrule
  apply mem_lines_of_requestLines
  rw [requestLines, if_neg (by simp [hfull])]
  simp [hrules]

theorem fieldLines_subset : ∀ line ∈ fieldLines d, line ∈ c.lines := by
  intro line hline
  have hfield : line ∈ c.sectionTypeLines s := by
    rw [sectionTypeLines, List.mem_append, List.mem_append]
    exact Or.inl (Or.inr (List.mem_flatMap_of_mem hd hline))
  have htypes : line ∈ c.sections.flatMap c.sectionTypeLines := List.mem_flatMap_of_mem hs hfield
  apply mem_lines_of_requestLines
  rw [requestLines, if_neg (by simp [hfull])]
  simp [htypes]

end Sections

/-! ### What the lines tell -/

theorem firstLiteral?_endpointLine (c : Contract) :
    firstLiteral? c.endpointLine = some ("    const ENDPOINT: &'static str = ", c.endpoint, ";") := by
  exact firstLiteral?_quote (by decide) c.endpoint ";"

theorem firstLiteral?_ruleLine (d : SectionField) :
    ∃ after, firstLiteral? (ruleLine d) = some ("    FieldRule::new(", d.rule.key, ", " ++ after) := by
  have hquote : '"' ∉ "    FieldRule::new(".toList := by decide
  have hstart : "    FieldRule::new(" = "    " ++ "FieldRule::new(" := by decide
  have hline : ∃ after, ruleLine d = "    FieldRule::new(" ++ quote d.rule.key ++ (", " ++ after) := by
    have hexpression : ruleLine d = "    " ++ ("FieldRule::new(" ++ quote d.rule.key ++ ", " ++ d.rule.check.expression
        ++ ")" ++ (if d.rule.required then "" else ".optional()") ++ (if d.rule.array then ".array()" else "")) ++ "," :=
      rfl
    rw [hexpression, hstart]
    simp only [String.append_assoc]
    exact ⟨_, rfl⟩
  obtain ⟨after, hline⟩ := hline
  exact ⟨after, by rw [hline, firstLiteral?_quote hquote]⟩

theorem firstLiteral?_renameLines (d : SectionField) :
    ∀ line ∈ renameLines d, firstLiteral? line = some ("    #[serde(rename = ", d.key, ")]") := by
  intro line hline
  rw [renameLines] at hline
  split at hline
  · rw [List.mem_singleton.1 hline]
    exact firstLiteral?_quote (by decide) d.key ")]"
  · cases hline

theorem tellsField_of_declares {lookups : Lookups} {place endpoint : String} {f : Field} {c : Contract}
    (hfull : c.isMinimal = false) {s : SectionType} (hs : s ∈ c.sections) {d : SectionField} (hd : d ∈ s.fields)
    (h : Declares lookups place endpoint f d) : c.TellsField f d := by
  have hruled := ruleLine_mem hfull hs hd
  have hdeclared := fieldLines_subset hfull hs hd
  obtain ⟨resolved, -, rfl⟩ := h
  exact ⟨hruled, firstLiteral?_ruleLine _, hdeclared, firstLiteral?_renameLines _, serializedName?_fieldLines f.key _ _⟩

theorem tellsKeys_of_build? {lookups : Lookups} {config : Config} {e : Endpoint} {c : Contract}
    (h : build? lookups config e = .ok c) : c.TellsKeys e := by
  have hdeclared := declared_of_build? h
  refine ⟨endpointLine_mem c, ?_, ?_⟩
  · rw [firstLiteral?_endpointLine, endpoint_of_build? h]
  · rw [config_of_build? h]
    by_cases hfull : config.mode = .full
    · have htyped := isMinimal_of_build? hfull h
      refine (forall₂_mem_right hdeclared).imp ?_
      intro part s hpart
      obtain ⟨hs, hpart⟩ := hpart
      refine ⟨hpart.part_eq, (forall₂_mem_right hpart.fields).imp ?_⟩
      intro f d hfield
      obtain ⟨hd, hfield⟩ := hfield
      exact tellsField_of_declares htyped hs hd hfield
    · rw [declaredParts, if_neg hfull] at hdeclared ⊢
      rw [List.forall₂_nil_left_iff.1 hdeclared]
      exact .nil

end Contract

namespace Package

/-- Each literal that the emitted source writes for a key of the description is one literal of the language, whose
value is that key: of an endpoint, in its contract and in the look-up of the server, and of a field, in its rule and
in its rename, which is left out only where the name of the field is the key. -/
theorem key_literals_denote_keys {lookups : Lookups} {config : Config} {endpoints : List Endpoint} {p : Package}
    (h : compile lookups config endpoints = .ok p) :
    ∃ s : ServerModule, s.artifact ∈ p.files
      ∧ (block "    match endpoint \x7b" "        _ => None," s.lines).map firstLiteral?
        = endpoints.map (fun e =>
            some ("        ", e.key, s!" => Some({identifier e.verb e.path}_Contract::sections()),"))
      ∧ List.Forall₂ (fun e c => c.artifact ∈ p.files ∧ c.config = config ∧ c.TellsKeys e) endpoints s.contracts := by
  obtain ⟨contracts, hcontracts, rfl⟩ := compile_eq_ok.1 h
  have hlists : (ServerModule.mk config contracts).Lists endpoints := ServerModule.lists_of_built hcontracts.built
  refine ⟨⟨config, contracts⟩, by simp [ofContracts], ?_, (forall₂_mem_right hcontracts.built).imp ?_⟩
  · rw [hlists.lookups, List.map_map]
    apply List.map_congr_left
    intro e _
    have hquote : '"' ∉ "        ".toList := by decide
    have hline : s!"        {quote e.key} => Some({identifier e.verb e.path}_Contract::sections()),"
        = "        " ++ quote e.key ++ s!" => Some({identifier e.verb e.path}_Contract::sections())," := by
      simp only [String.append_assoc]
      rfl
    rw [Function.comp, hline, firstLiteral?_quote hquote]
  · intro e c hbuild
    obtain ⟨hc, hbuild⟩ := hbuild
    have hfile : c.artifact ∈ (ofContracts config contracts).files := by
      rw [ofContracts, List.append_assoc]
      exact List.mem_append_left _ (List.mem_map_of_mem hc)
    exact ⟨hfile, Contract.config_of_build? hbuild, Contract.tellsKeys_of_build? hbuild⟩

/-- Keys with quotes, a backslash, ends of lines, and a combining mark and a zero with a digit behind each. -/
def oddlyNamed : Endpoint where
  verb := .post
  path := "/a\"\\\n\u03011"
  body := some [{ key := "\"\\u\x7b31\x7d", type := .native "string" }, { key := "e\u03011\r\x001", type := .native "int" }]
  returns := { type := .native "string" }

theorem key_literals_denote_odd_keys :
    ∃ p, compile {} {} [oddlyNamed] = .ok p ∧ ∃ s : ServerModule, s.artifact ∈ p.files
      ∧ (block "    match endpoint \x7b" "        _ => None," s.lines).map firstLiteral?
        = [some ("        ", "POST /a\"\\\n\u03011", " => Some(POST_a____1_Contract::sections()),")]
      ∧ ∃ c, s.contracts = [c] ∧ c.artifact ∈ p.files ∧ c.TellsKeys oddlyNamed
        ∧ ∃ t, c.sections = [t] ∧ t.part = .body ∧ List.Forall₂ c.TellsField (oddlyNamed.fieldsOf .body) t.fields := by
  have hok : (compile {} {} [oddlyNamed]).isOk = true := by decide +kernel
  obtain ⟨p, hp⟩ := isOk_iff.1 hok
  obtain ⟨s, hs, hlookups, hcontracts⟩ := key_literals_denote_keys hp
  obtain ⟨c, cs, ⟨hfile, hconfig, hkeys⟩, hcs, hcontracts⟩ := List.forall₂_cons_left_iff.1 hcontracts
  rw [List.forall₂_nil_left_iff.1 hcs] at hcontracts
  have hparts : declaredParts .full oddlyNamed = [.body] := by decide +kernel
  have hsections := hkeys.sections
  rw [hconfig, hparts] at hsections
  obtain ⟨t, ts, ⟨hpart, hfields⟩, hts, hsections⟩ := List.forall₂_cons_left_iff.1 hsections
  rw [List.forall₂_nil_left_iff.1 hts] at hsections
  refine ⟨p, hp, s, hs, ?_, c, hcontracts, hfile, hkeys, t, hsections, hpart, hfields⟩
  rw [hlookups]
  decide +kernel

end Package

end ApiContracts.Compile

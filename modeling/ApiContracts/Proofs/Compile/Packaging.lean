import ApiContracts.Proofs.Compile.Server

/-!
# What a package holds

Names and paths are told in several places: each file has both, the manifest and the index of the contracts
list them again, the server writes down every contract four times, and the overview of a description derives
the path of a contract on its own. They all agree, and nothing is told twice. The reason is the same
everywhere: names of contracts differ, and start with a verb in capitals, which no other name in a package
does.

The index is read as a text, cut into lines. The server is read line by line, since the name of its library is
written into some lines and may hold anything: `block` finds what stands between the line that opens a part
and the line that closes it. A line is told from these two by how it starts, whatever is written behind, which
`Departs` says.
-/

namespace ApiContracts.Compile

open Text

/-- Whether a text is no beginning of another one, so that it leaves it however it goes on. -/
def Departs (other text : String) : Prop := ¬ text.toList <+: other.toList

instance (other text : String) : Decidable (Departs other text) :=
  inferInstanceAs (Decidable (¬ text.toList <+: other.toList))

theorem Departs.append {other text : String} (h : Departs other text) (rest : String) :
    Departs other (text ++ rest) := by
  intro hprefix
  rw [String.toList_append] at hprefix
  exact h ((List.prefix_append _ _).trans hprefix)

theorem Departs.ne {other text : String} (h : Departs other text) : other ≠ text := by
  intro heq
  rw [heq] at h
  exact h List.prefix_rfl

theorem departs_identifier {other : String} (start : String)
    (h : ∀ v ∈ Verb.all, Departs other (start ++ v.wireName)) (v : Verb) (path : String) :
    Departs other (start ++ identifier v path) := by
  rw [identifier, ← String.append_assoc]
  exact (h v v.mem_all).append _

/-! ### The index of the contracts -/

/-- The lines of a source are cut where they end, and wherever one of them is not on one line. -/
theorem splitText_sourceText_flatMap {lines : List String} (hne : lines ≠ []) :
    splitText '\n' (sourceText lines) = lines.flatMap (splitText '\n') ++ [""] := by
  induction lines with
  | nil => exact absurd rfl hne
  | cons line rest ih =>
      by_cases hrest : rest = []
      · have htext : (sourceText [line]).toList = line.toList ++ '\n' :: [] := by
          rw [sourceText, String.intercalate_singleton, String.toList_append]
          rfl
        rw [hrest, splitText, htext, pieces_append_cons]
        simp [pieces, splitText]
      · have htext : (sourceText (line :: rest)).toList = line.toList ++ '\n' :: (sourceText rest).toList := by
          rw [sourceText, String.intercalate_cons_of_ne_nil hrest, sourceText]
          simp [String.toList_append]
        rw [splitText, htext, pieces_append_cons, List.map_append, List.flatMap_cons, List.append_assoc]
        exact congrArg (splitText '\n' line ++ ·) (ih hrest)

/-- The lines behind the first one that opens a part, up to the next one that closes it. -/
def block (opening closing : String) (lines : List String) : List String :=
  ((lines.dropWhile (· != opening)).drop 1).takeWhile (· != closing)

theorem block_append {opening closing : String} {before body after : List String} (hbefore : opening ∉ before)
    (hbody : closing ∉ body) :
    block opening closing (before ++ opening :: (body ++ closing :: after)) = body := by
  have hskip : ∀ line ∈ before, (line != opening) = true := by
    intro line hline
    rw [bne_iff_ne]
    rintro rfl
    exact hbefore hline
  have hkeep : ∀ line ∈ body, (line != closing) = true := by
    intro line hline
    rw [bne_iff_ne]
    rintro rfl
    exact hbody hline
  have hopening : (before ++ opening :: (body ++ closing :: after)).dropWhile (· != opening)
      = opening :: (body ++ closing :: after) := by
    rw [List.dropWhile_append_of_pos hskip, List.dropWhile_cons, if_neg (by simp)]
  rw [block, hopening, List.drop_one, List.tail_cons, List.takeWhile_append_of_pos hkeep, List.takeWhile_cons,
    if_neg (by simp), List.append_nil]

namespace ServerModule

def preamble (s : ServerModule) : List String :=
  [banner, "#![allow(non_camel_case_types, unused_imports)]", "", s!"use {s.config.runtime}::error::ConfigError;",
    s!"use {s.config.runtime}::server::\x7bApp, SystemParam\x7d;", s!"use {s.config.runtime}::typed::Contract;",
    s!"use {s.config.runtime}::validator::SectionSpec;"] ++
  s.contracts.map s.importLine ++ ["", "/// Every endpoint descriptor this server can implement."]

def untilLookup (s : ServerModule) : List String :=
  s.preamble ++ ["pub enum Endpoints \x7b"] ++ s.contracts.map variantLine ++ ["\x7d"] ++
  s.contracts.flatMap conversionLines ++
  ["", "/// Request contract sections of an endpoint key (`\"METHOD /path\"`).",
    "pub fn request_contract(endpoint: &str) -> Option<&'static [SectionSpec]> \x7b"]

def starts : List String :=
  ["use ", "impl From<", "    fn from(endpoint: ", "        Endpoints::", "        \"", "            Endpoints::"] ++
  Verb.all.map fun v => "    " ++ v.wireName

section Lines

variable {text : String} (h : ∀ start ∈ starts, Departs text start)
include h

theorem not_mem_imports (s : ServerModule) : text ∉ s.contracts.map s.importLine := by
  have huse := h "use " (by decide)
  intro hmem
  obtain ⟨c, -, hline⟩ := List.mem_map.1 hmem
  have hdeparts : Departs text (s.importLine c) :=
    ((((((huse.append _).append _).append _).append _).append _).append _)
  exact hdeparts.ne hline.symm

theorem not_mem_variants (contracts : List Contract) : text ∉ contracts.map variantLine := by
  have hverbs : ∀ v ∈ Verb.all, Departs text ("    " ++ v.wireName) :=
    fun v hv => h _ (List.mem_append_right _ (List.mem_map_of_mem hv))
  intro hmem
  obtain ⟨c, -, hline⟩ := List.mem_map.1 hmem
  have hdeparts : Departs text (variantLine c) :=
    (((departs_identifier "    " hverbs c.verb c.path).append _).append _).append _
  exact hdeparts.ne hline.symm

theorem not_mem_conversions (hfixed : text ∉ ["", "    \x7d", "\x7d"]) (contracts : List Contract) :
    text ∉ contracts.flatMap conversionLines := by
  have himpl := h "impl From<" (by decide)
  have hfrom := h "    fn from(endpoint: " (by decide)
  have hvalue := h "        Endpoints::" (by decide)
  intro hmem
  obtain ⟨c, -, hline⟩ := List.mem_flatMap.1 hmem
  rw [conversionLines] at hline
  simp only [List.mem_cons, List.not_mem_nil, or_false, not_or] at hline hfixed
  rcases hline with hline | hline | hline | hline | hline | hline
  · exact hfixed.1 hline
  · exact ((himpl.append _).append _).ne hline
  · exact ((hfrom.append _).append _).ne hline
  · exact ((hvalue.append _).append _).ne hline
  · exact hfixed.2.1 hline
  · exact hfixed.2.2 hline

theorem not_mem_lookups (contracts : List Contract) : text ∉ contracts.map lookupLine := by
  have hquote := h "        \"" (by decide)
  intro hmem
  obtain ⟨c, -, hline⟩ := List.mem_map.1 hmem
  have hstart : "        " ++ quote c.endpoint
      = "        \"" ++ String.ofList (escape c.endpoint.toList ++ ['"']) := by
    rw [← String.toList_inj]
    simp [toList_quote, String.toList_append]
  have hkey : Departs text ("        " ++ quote c.endpoint) := by
    rw [hstart]
    exact hquote.append _
  have hdeparts : Departs text (lookupLine c) := ((hkey.append _).append _).append _
  exact hdeparts.ne hline.symm

theorem not_mem_arms (contracts : List Contract) : text ∉ contracts.map implementLine := by
  have harm := h "            Endpoints::" (by decide)
  intro hmem
  obtain ⟨c, -, hline⟩ := List.mem_map.1 hmem
  have hdeparts : Departs text (implementLine c) := (harm.append _).append _
  exact hdeparts.ne hline.symm

theorem not_mem_preamble (s : ServerModule)
    (hfixed : text ∉ [banner, "#![allow(non_camel_case_types, unused_imports)]", "",
      "/// Every endpoint descriptor this server can implement."]) : text ∉ s.preamble := by
  have huse := h "use " (by decide)
  simp only [List.mem_cons, List.not_mem_nil, or_false, not_or] at hfixed
  simp only [preamble, List.mem_append, List.mem_cons, List.not_mem_nil, or_false, not_or]
  refine ⟨⟨⟨hfixed.1, hfixed.2.1, hfixed.2.2.1, ?_, ?_, ?_, ?_⟩, not_mem_imports h s⟩, hfixed.2.2⟩
  all_goals exact ((huse.append _).append _).ne

end Lines

theorem variants_eq (s : ServerModule) :
    block "pub enum Endpoints \x7b" "\x7d" s.lines = s.contracts.map variantLine := by
  have hbefore : "pub enum Endpoints \x7b" ∉ s.preamble :=
    not_mem_preamble (by decide +kernel) s (by decide +kernel)
  have hbody : "\x7d" ∉ s.contracts.map variantLine := not_mem_variants (by decide +kernel) _
  obtain ⟨after, hlines⟩ : ∃ after, s.lines
      = s.preamble ++ "pub enum Endpoints \x7b" :: (s.contracts.map variantLine ++ "\x7d" :: after) := by
    simp only [lines, preamble, List.append_assoc, List.cons_append, List.nil_append]
    exact ⟨_, rfl⟩
  rw [hlines, block_append hbefore hbody]

theorem conversions_eq (s : ServerModule) :
    block "\x7d" "/// Request contract sections of an endpoint key (`\"METHOD /path\"`)." s.lines
      = s.contracts.flatMap conversionLines ++ [""] := by
  have hpreamble : "\x7d" ∉ s.preamble := not_mem_preamble (by decide +kernel) s (by decide +kernel)
  have hvariants : "\x7d" ∉ s.contracts.map variantLine := not_mem_variants (by decide +kernel) _
  have hbefore : "\x7d" ∉ s.preamble ++ "pub enum Endpoints \x7b" :: s.contracts.map variantLine := by
    have hopening : ¬ "\x7d" = "pub enum Endpoints \x7b" := by decide
    rw [List.mem_append, List.mem_cons]
    simp [hpreamble, hvariants, hopening]
  have hbody : "/// Request contract sections of an endpoint key (`\"METHOD /path\"`)."
      ∉ s.contracts.flatMap conversionLines ++ [""] := by
    have hconversions : "/// Request contract sections of an endpoint key (`\"METHOD /path\"`)."
        ∉ s.contracts.flatMap conversionLines := not_mem_conversions (by decide +kernel) (by decide +kernel) _
    rw [List.mem_append, not_or]
    exact ⟨hconversions, by decide +kernel⟩
  obtain ⟨after, hlines⟩ : ∃ after, s.lines
      = (s.preamble ++ "pub enum Endpoints \x7b" :: s.contracts.map variantLine) ++ "\x7d"
        :: ((s.contracts.flatMap conversionLines ++ [""])
          ++ "/// Request contract sections of an endpoint key (`\"METHOD /path\"`)." :: after) := by
    simp only [lines, preamble, List.append_assoc, List.cons_append, List.nil_append]
    exact ⟨_, rfl⟩
  rw [hlines, block_append hbefore hbody]

theorem not_mem_untilLookup {text : String} (h : ∀ start ∈ starts, Departs text start)
    (hfixed : text ∉ [banner, "#![allow(non_camel_case_types, unused_imports)]", "",
      "/// Every endpoint descriptor this server can implement.", "pub enum Endpoints \x7b", "    \x7d", "\x7d",
      "/// Request contract sections of an endpoint key (`\"METHOD /path\"`).",
      "pub fn request_contract(endpoint: &str) -> Option<&'static [SectionSpec]> \x7b"]) (s : ServerModule) :
    text ∉ s.untilLookup := by
  simp only [List.mem_cons, List.not_mem_nil, or_false, not_or] at hfixed
  obtain ⟨hbanner, hallow, hempty, hunion, henum, hinner, hclose, hlookup, hfn⟩ := hfixed
  have hpreamble : text ∉ s.preamble := not_mem_preamble h s (by simp [hbanner, hallow, hempty, hunion])
  have hvariants := not_mem_variants h s.contracts
  have hconversions := not_mem_conversions h (by simp [hempty, hinner, hclose]) s.contracts
  simp only [untilLookup, List.mem_append, List.mem_cons, List.not_mem_nil, or_false, not_or]
  exact ⟨⟨⟨⟨⟨hpreamble, henum⟩, hvariants⟩, hclose⟩, hconversions⟩, hempty, hlookup, hfn⟩

theorem lookups_eq (s : ServerModule) :
    block "    match endpoint \x7b" "        _ => None," s.lines = s.contracts.map lookupLine := by
  have hbefore : "    match endpoint \x7b" ∉ s.untilLookup :=
    not_mem_untilLookup (by decide +kernel) (by decide +kernel) s
  have hbody : "        _ => None," ∉ s.contracts.map lookupLine := not_mem_lookups (by decide +kernel) _
  obtain ⟨after, hlines⟩ : ∃ after, s.lines
      = s.untilLookup ++ "    match endpoint \x7b"
        :: (s.contracts.map lookupLine ++ "        _ => None," :: after) := by
    simp only [lines, untilLookup, preamble, List.append_assoc, List.cons_append, List.nil_append]
    exact ⟨_, rfl⟩
  rw [hlines, block_append hbefore hbody]

def application : List String :=
  ["        _ => None,", "    \x7d", "\x7d", "", "#[derive(Default)]", "pub struct AbstractApi \x7b", "    app: App,",
    "\x7d", "", "impl AbstractApi \x7b", "    pub fn new() -> Self \x7b", "        Self::default()", "    \x7d", "",
    "    /// Run `before_start`, then listen on the port (parameter, `PORT`, 3000).",
    "    pub fn init(&mut self, param: SystemParam) -> Result<&mut Self, ConfigError> \x7b",
    "        self.app.init(param)?;", "        Ok(self)", "    \x7d", "",
    "    pub fn implement(&self, endpoint: impl Into<Endpoints>) -> Result<(), ConfigError> \x7b",
    "        let endpoint: Endpoints = endpoint.into();"]

theorem arms_eq (s : ServerModule) :
    block "        match endpoint \x7b" "        \x7d" s.lines = s.contracts.map implementLine := by
  have huntil : "        match endpoint \x7b" ∉ s.untilLookup :=
    not_mem_untilLookup (by decide +kernel) (by decide +kernel) s
  have hlookups : "        match endpoint \x7b" ∉ s.contracts.map lookupLine :=
    not_mem_lookups (by decide +kernel) _
  have happlication : "        match endpoint \x7b" ∉ application := by decide +kernel
  have hbefore : "        match endpoint \x7b"
      ∉ s.untilLookup ++ "    match endpoint \x7b" :: (s.contracts.map lookupLine ++ application) := by
    have hmatch : ¬ "        match endpoint \x7b" = "    match endpoint \x7b" := by decide
    rw [List.mem_append, List.mem_cons, List.mem_append, not_or, not_or, not_or]
    exact ⟨huntil, hmatch, hlookups, happlication⟩
  have hbody : "        \x7d" ∉ s.contracts.map implementLine := not_mem_arms (by decide +kernel) _
  obtain ⟨after, hlines⟩ : ∃ after, s.lines
      = (s.untilLookup ++ "    match endpoint \x7b" :: (s.contracts.map lookupLine ++ application))
        ++ "        match endpoint \x7b" :: (s.contracts.map implementLine ++ "        \x7d" :: after) := by
    simp only [lines, untilLookup, preamble, application, List.append_assoc, List.cons_append, List.nil_append]
    exact ⟨_, rfl⟩
  rw [hlines, block_append hbefore hbody]

/-- The lines of a server that list the contracts of endpoints, in each of its four parts. -/
structure Lists (s : ServerModule) (endpoints : List Endpoint) : Prop where
  variants : block "pub enum Endpoints \x7b" "\x7d" s.lines
    = endpoints.map fun e => s!"    {identifier e.verb e.path}({identifier e.verb e.path}),"
  conversions : block "\x7d" "/// Request contract sections of an endpoint key (`\"METHOD /path\"`)." s.lines
    = (endpoints.flatMap fun e => ["", s!"impl From<{identifier e.verb e.path}> for Endpoints \x7b",
        s!"    fn from(endpoint: {identifier e.verb e.path}) -> Self \x7b",
        s!"        Endpoints::{identifier e.verb e.path}(endpoint)", "    \x7d", "\x7d"]) ++ [""]
  lookups : block "    match endpoint \x7b" "        _ => None," s.lines
    = endpoints.map fun e => s!"        {quote e.key} => Some({identifier e.verb e.path}_Contract::sections()),"
  arms : block "        match endpoint \x7b" "        \x7d" s.lines
    = endpoints.map fun e =>
        s!"            Endpoints::{identifier e.verb e.path}(descriptor) => self.app.implement(descriptor.0),"

theorem lists_of_built {s : ServerModule} {lookups : Lookups} {config : Config} {endpoints : List Endpoint}
    (h : List.Forall₂ (fun e c => Contract.build? lookups config e = .ok c) endpoints s.contracts) :
    s.Lists endpoints := by
  have hvariant : ∀ e c, Contract.build? lookups config e = .ok c → variantLine c
      = s!"    {identifier e.verb e.path}({identifier e.verb e.path})," := by
    intro e c hbuild
    rw [variantLine, Contract.identifier_of_build? hbuild]
  have hconversion : ∀ e c, Contract.build? lookups config e = .ok c → conversionLines c
      = ["", s!"impl From<{identifier e.verb e.path}> for Endpoints \x7b",
        s!"    fn from(endpoint: {identifier e.verb e.path}) -> Self \x7b",
        s!"        Endpoints::{identifier e.verb e.path}(endpoint)", "    \x7d", "\x7d"] := by
    intro e c hbuild
    rw [conversionLines, Contract.identifier_of_build? hbuild]
  have hlookup : ∀ e c, Contract.build? lookups config e = .ok c → lookupLine c
      = s!"        {quote e.key} => Some({identifier e.verb e.path}_Contract::sections())," := by
    intro e c hbuild
    rw [lookupLine, Contract.identifier_of_build? hbuild, Contract.endpoint_of_build? hbuild]
  have harm : ∀ e c, Contract.build? lookups config e = .ok c → implementLine c
      = s!"            Endpoints::{identifier e.verb e.path}(descriptor) => self.app.implement(descriptor.0)," := by
    intro e c hbuild
    unfold implementLine
    rw [Contract.identifier_of_build? hbuild]
  refine { variants := ?_, conversions := ?_, lookups := ?_, arms := ?_ }
  · rw [variants_eq, Package.map_of_built h hvariant]
  · rw [conversions_eq, List.flatMap_def, Package.map_of_built h hconversion, ← List.flatMap_def]
  · rw [lookups_eq, Package.map_of_built h hlookup]
  · rw [arms_eq, Package.map_of_built h harm]

end ServerModule

/-! ### Files and manifest -/

namespace Package

/-- Where the files of a package are, seen from its root: those of the contracts, by their names, and four
that it always has. -/
def places (names : List String) : List String :=
  names.map (fun name => "api/" ++ name ++ ".rs") ++ ["utility.rs", "server.rs", "mod.rs", "api/mod.rs"]

section Files

variable {config : Config} {contracts : List Contract}

theorem sourceFile_contractPath (config : Config) (name : String) :
    sourceFile (config.contractPath name) = config.root ++ "/" ++ ("api/" ++ name ++ ".rs") := by
  have hpath : sourceFile (config.contractPath name) = config.root ++ "/api/" ++ name ++ ".rs" := rfl
  rw [hpath, ← String.toList_inj]
  simp [String.toList_append]

theorem paths_ofContracts (h : ∀ c ∈ contracts, c.config = config) :
    (ofContracts config contracts).files.map (·.path)
      = (places (contracts.map (·.identifier))).map fun place => config.root ++ "/" ++ place := by
  have hcontracts : (contracts.map (·.artifact)).map (·.path)
      = ((contracts.map (·.identifier)).map fun name => "api/" ++ name ++ ".rs").map
          fun place => config.root ++ "/" ++ place := by
    simp only [List.map_map]
    apply List.map_congr_left
    intro c hc
    have hpath : c.artifact.path = sourceFile (c.config.contractPath c.identifier) := rfl
    simp only [Function.comp, hpath, h c hc, sourceFile_contractPath]
  have hutility : (utilityArtifact config).path = config.root ++ "/" ++ "utility.rs" := by
    have hpath : (utilityArtifact config).path = config.root ++ "/utility" ++ ".rs" := rfl
    rw [hpath, String.append_assoc, String.append_assoc]
    rfl
  have hserver : (ServerModule.artifact ⟨config, contracts⟩).path = config.root ++ "/" ++ "server.rs" := by
    have hpath : (ServerModule.artifact ⟨config, contracts⟩).path = config.root ++ "/server" ++ ".rs" := rfl
    rw [hpath, String.append_assoc, String.append_assoc]
    rfl
  have hindexes : (indexArtifacts config contracts).map (·.path)
      = ["mod.rs", "api/mod.rs"].map fun place => config.root ++ "/" ++ place := by
    simp only [List.map_cons, List.map_nil, String.append_assoc]
    rfl
  rw [ofContracts, places, List.map_append, List.map_append, hcontracts, hindexes, List.append_assoc,
    List.map_append]
  simp only [List.map_cons, List.map_nil, hutility, hserver, List.cons_append, List.nil_append]

end Files

end Package

end ApiContracts.Compile

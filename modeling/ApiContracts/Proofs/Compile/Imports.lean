import ApiContracts.Proofs.Compile.Server
import ApiContracts.Proofs.Table
import Mathlib.Data.List.Induction

/-!
# Names that a contract module brings in

The `use` lines of an emitted contract are four of the library and one for each line that the types of
the endpoint ask for. Lines are kept once each, but a line is a path with a name at its end, and models
and schemas are named apart: so two lines may bring in one name, and a type may bear a name of the
library. `use_names_nodup_iff` says that nothing else goes wrong.
-/

namespace ApiContracts.Compile

open Text

/-- A `use` declaration: a module, and what it brings in from there. -/
structure Use where
  module : String
  items : List String

def lastComponent (path : String) : String := String.ofList (afterColons path.toList)

namespace Use

def line (u : Use) : String :=
  match u.items with
  | [item] => "use " ++ u.module ++ "::" ++ item ++ ";"
  | items => "use " ++ u.module ++ "::\x7b" ++ ", ".intercalate items ++ "\x7d;"

def names (u : Use) : List String := u.items.map lastComponent

end Use

def isUse (line : String) : Bool := (afterStart "use ".toList line.toList).isSome

theorem ServerModule.Plain.isUse_eq_false {line : String} (h : Plain line) : isUse line = false := by
  rw [isUse, h.afterStart_eq_none, Option.isSome_none]

namespace Contract

/-- What a contract module uses of the library and of the error utility. -/
def libraryUses (c : Contract) : List Use :=
  [⟨"serde", ["Deserialize", "Serialize"]⟩,
    ⟨c.config.runtime ++ "::typed", ["Contract", "ContractMode", "EndpointDescriptor", "HandlerError", "RawParams"]⟩,
    ⟨c.config.runtime ++ "::validator", ["conforms", "is_member", "Check", "FieldRule", "Section", "SectionSpec"]⟩,
    ⟨relativePath c.modulePath c.config.utilityPath, ["error", "ErrorFn"]⟩]

def uses (c : Contract) : List Use :=
  c.libraryUses ++ c.imports.entries.map fun (_, i) => ⟨i.path, [i.name]⟩

def importedNames (c : Contract) : List String := c.uses.flatMap Use.names

theorem isUse_append (rest : String) : isUse ("use " ++ rest) = true := by
  simp [isUse, String.toList_append, afterStart]

theorem isUse_line (u : Use) : isUse u.line = true := by
  rw [Use.line]
  split
  · simp only [String.append_assoc]
    exact isUse_append _
  · simp only [String.append_assoc]
    exact isUse_append _

theorem filter_isUse_append {before after uses : List String} (hbefore : before.filter isUse = uses)
    (hafter : ∀ line ∈ after, isUse line = false) : (before ++ after).filter isUse = uses := by
  have hnone : after.filter isUse = [] := by
    rw [List.filter_eq_nil_iff]
    intro line hline
    rw [hafter line hline]
    decide
  rw [List.filter_append, hbefore, hnone, List.append_nil]

theorem isUse_fieldLines (f : SectionField) : ∀ line ∈ fieldLines f, isUse line = false := by
  have hrename : ServerModule.Plain "    #[serde(rename = " := by decide
  have hfield : ServerModule.Plain "    pub " := by decide
  have hdefault : isUse "    #[serde(default, skip_serializing_if = \"Option::is_none\")]" = false := by
    decide
  rw [fieldLines, renameLines, List.forall_mem_append, List.forall_mem_append]
  refine ⟨⟨?_, ?_⟩, ?_⟩
  · split
    · rw [List.forall_mem_singleton]
      exact hrename.append.append.isUse_eq_false
    · simp
  · split
    · rw [List.forall_mem_singleton]
      exact hdefault
    · simp
  · rw [List.forall_mem_singleton]
    exact hfield.append.append.append.append.isUse_eq_false

theorem isUse_sectionTypeLines (c : Contract) (s : SectionType) :
    ∀ line ∈ c.sectionTypeLines s, isUse line = false := by
  have hstruct : ServerModule.Plain "pub struct " := by decide
  simp only [sectionTypeLines, List.forall_mem_append, List.forall_mem_cons, List.forall_mem_flatMap]
  refine ⟨⟨⟨by decide, by decide, hstruct.append.append.isUse_eq_false, by simp⟩, ?_⟩, by decide, by simp⟩
  intro f _
  exact isUse_fieldLines f

theorem isUse_rulesLines (s : SectionType) : ∀ line ∈ rulesLines s, isUse line = false := by
  have hconst : ServerModule.Plain "const " := by decide
  have hrule : ServerModule.Plain "    " := by decide
  simp only [rulesLines, List.forall_mem_append, List.forall_mem_cons, List.forall_mem_map]
  refine ⟨⟨⟨by decide, hconst.append.append.isUse_eq_false, by simp⟩, ?_⟩, by decide, by simp⟩
  intro f _
  exact hrule.append.append.isUse_eq_false

theorem isUse_requestLines (c : Contract) : ∀ line ∈ c.requestLines, isUse line = false := by
  have htype : ServerModule.Plain "pub type " := by decide
  have hstruct : ServerModule.Plain "pub struct " := by decide
  have hfield : ServerModule.Plain "    pub " := by decide
  have hsection : ServerModule.Plain "    SectionSpec::new(Section::" := by decide
  rw [requestLines]
  split
  · simp only [List.forall_mem_cons]
    exact ⟨by decide, htype.append.append.isUse_eq_false, by simp⟩
  · simp only [List.forall_mem_append, List.forall_mem_cons, List.forall_mem_flatMap, List.forall_mem_map]
    refine ⟨⟨⟨⟨⟨⟨⟨?_, ?_⟩, ?_⟩, ?_⟩, ?_⟩, ?_⟩, ?_⟩, ?_⟩
    · exact fun s _ => isUse_sectionTypeLines c s
    · exact ⟨by decide, by decide, hstruct.append.append.isUse_eq_false, by simp⟩
    · exact fun s _ => hfield.append.append.append.append.isUse_eq_false
    · exact ⟨by decide, by simp⟩
    · exact fun s _ => isUse_rulesLines s
    · exact ⟨by decide, by decide, by simp⟩
    · exact fun s _ => hsection.append.append.append.append.isUse_eq_false
    · exact ⟨by decide, by simp⟩

def libraryNames : List String :=
  ["Deserialize", "Serialize", "Contract", "ContractMode", "EndpointDescriptor", "HandlerError", "RawParams",
    "conforms", "is_member", "Check", "FieldRule", "Section", "SectionSpec", "error", "ErrorFn"]

theorem use_line_of {module rest : String} (place first second : String) (others : List String)
    (hrest : rest = place ++ ("::\x7b" ++ (", ".intercalate (first :: second :: others) ++ "\x7d;"))) :
    "use " ++ module ++ rest = (Use.mk (module ++ place) (first :: second :: others)).line := by
  rw [hrest, Use.line]
  simp only [String.append_assoc]

theorem libraryLines_eq (c : Contract) :
    ["use serde::\x7bDeserialize, Serialize\x7d;",
      s!"use {c.config.runtime}::typed::\x7bContract, ContractMode, EndpointDescriptor, HandlerError, RawParams\x7d;",
      s!"use {c.config.runtime}::validator::\x7bconforms, is_member, Check, FieldRule, Section, SectionSpec\x7d;",
      s!"use {relativePath c.modulePath c.config.utilityPath}::\x7berror, ErrorFn\x7d;"]
      = c.libraryUses.map Use.line := by
  have hserde : "use serde::\x7bDeserialize, Serialize\x7d;"
      = (Use.mk "serde" ["Deserialize", "Serialize"]).line := by decide +kernel
  have htyped : s!"use {c.config.runtime}::typed::\x7bContract, ContractMode, EndpointDescriptor, HandlerError, RawParams\x7d;"
      = (Use.mk (c.config.runtime ++ "::typed") _).line :=
    use_line_of "::typed" "Contract" "ContractMode" ["EndpointDescriptor", "HandlerError", "RawParams"]
      (by decide +kernel)
  have hvalidator : s!"use {c.config.runtime}::validator::\x7bconforms, is_member, Check, FieldRule, Section, SectionSpec\x7d;"
      = (Use.mk (c.config.runtime ++ "::validator") _).line :=
    use_line_of "::validator" "conforms" "is_member" ["Check", "FieldRule", "Section", "SectionSpec"]
      (by decide +kernel)
  have hutility : s!"use {relativePath c.modulePath c.config.utilityPath}::\x7berror, ErrorFn\x7d;"
      = (Use.mk (relativePath c.modulePath c.config.utilityPath ++ "") _).line :=
    use_line_of "" "error" "ErrorFn" [] (by decide +kernel)
  rw [String.append_empty] at hutility
  rw [hserde, htyped, hvalidator, hutility]
  rfl

/-- The `use` lines of the emitted source are those declarations. -/
theorem filter_isUse_lines {c : Contract} (hkeys : ∀ e ∈ c.imports.entries, e.1 = e.2.line) :
    c.lines.filter isUse = c.uses.map Use.line := by
  have hlines : c.libraryUses.map Use.line ++ c.imports.keys = c.uses.map Use.line := by
    rw [uses, List.map_append, Table.keys, List.map_map]
    exact congrArg _ (List.map_congr_left hkeys)
  have huse : (c.uses.map Use.line).filter isUse = c.uses.map Use.line := by
    rw [List.filter_eq_self]
    intro line hline
    obtain ⟨u, -, rfl⟩ := List.mem_map.1 hline
    exact isUse_line u
  have hresult : ServerModule.Plain "pub type " := by decide
  have hstruct : ServerModule.Plain "pub struct " := by decide
  have hcontract : ServerModule.Plain "impl Contract for " := by decide
  have hendpoint : ServerModule.Plain "    const ENDPOINT: &'static str = " := by decide
  have hmode : ServerModule.Plain "    const MODE: ContractMode = ContractMode::" := by decide
  have hrequest : ServerModule.Plain "    type Request = " := by decide
  have hresponse : ServerModule.Plain "    type Response = " := by decide
  have hcomment : ServerModule.Plain "/// \x60" := by decide
  have himpl : ServerModule.Plain "impl " := by decide
  have hfunction : ServerModule.Plain "        F: Fn(" := by decide
  have hempty : isUse "" = false := by decide
  rw [lines]
  refine filter_isUse_append ?_ ?_
  · refine filter_isUse_append ?_ ?_
    · refine filter_isUse_append ?_ ?_
      · refine filter_isUse_append ?_ (isUse_requestLines c)
        rw [← hlines, ← libraryLines_eq] at huse ⊢
        have hbanner : isUse banner = false := by decide +kernel
        have hallow : isUse "#![allow(non_camel_case_types, non_snake_case, dead_code, unused_imports)]" = false := by
          decide +kernel
        rw [List.cons_append, List.cons_append, List.cons_append, List.filter_cons_of_neg (by simp [hbanner]),
          List.filter_cons_of_neg (by simp [hallow]), List.filter_cons_of_neg (by simp [hempty])]
        exact huse
      · simp only [List.forall_mem_cons]
        refine ⟨hempty, hresult.append.append.append.append.isUse_eq_false, hempty,
          hstruct.append.append.isUse_eq_false, hempty, hcontract.append.append.isUse_eq_false,
          hendpoint.append.append.isUse_eq_false, hmode.append.append.isUse_eq_false,
          hrequest.append.append.isUse_eq_false, hresponse.append.append.isUse_eq_false, by simp⟩
    · split
      · simp
      · decide +kernel
  · have hnew : ["    pub fn new<F>(f: F) -> Self", "    where"].all (!isUse ·) = true := by decide +kernel
    have hend : ["    \x7b", "        Self(EndpointDescriptor::new(move |req| f(req, error)))", "    \x7d",
        "\x7d"].all (!isUse ·) = true := by decide +kernel
    simp only [List.all_cons, List.all_nil, Bool.and_true, Bool.and_eq_true, Bool.not_eq_true'] at hnew hend
    simp only [List.forall_mem_cons]
    exact ⟨by decide, hempty, hcomment.append.append.isUse_eq_false,
      hstruct.append.append.append.append.isUse_eq_false, hempty, himpl.append.append.isUse_eq_false, hnew.1,
      hnew.2, hfunction.append.append.append.append.isUse_eq_false, hend.1, hend.2.1, hend.2.2.1, hend.2.2.2,
      by simp⟩

end Contract

/-! ### Which types are imported -/

/-- The import of a type, for the module at `place`; native types need none. -/
def Lookups.source? (lookups : Lookups) (place : String) : TypeReference → Option Import
  | .native _ => none
  | .schema name => (lookups.schemas.get? name).map fun target => ⟨relativePath place target, name⟩
  | .table name | .enum name => (lookups.models.get? name).map fun target => ⟨relativePath place target, name⟩

theorem Lookups.source_resolve {lookups : Lookups} {place endpoint : String} {type : TypeReference}
    {resolved : Resolved} (h : lookups.resolve place endpoint type = .ok resolved) :
    resolved.source = lookups.source? place type := by
  cases resolve_eq_ok.1 h with
  | native => rfl
  | schema htarget | table htarget | enum htarget => rw [source?, htarget, Option.map_some]

def addImports (imports : Table Import) (sources : List Import) : Table Import :=
  sources.foldl (fun t i => t.insert i.line i) imports

theorem addImport_eq (imports : Table Import) (source : Option Import) :
    addImport imports source = addImports imports source.toList := by
  cases source <;> rfl

theorem addImports_append (imports : Table Import) (sources others : List Import) :
    addImports imports (sources ++ others) = addImports (addImports imports sources) others := by
  exact List.foldl_append

theorem get?_addImports {sources : List Import} {line : String} :
    (addImports .empty sources).get? line = sources.reverse.find? fun i => decide (i.line = line) := by
  induction sources using List.reverseRecOn with
  | nil => exact Table.get?_empty
  | append_singleton sources i ih =>
      rw [addImports_append, List.reverse_append, List.reverse_singleton, List.singleton_append,
        List.find?_cons, ← ih]
      have hone : (addImports (addImports .empty sources) [i]).get? line
          = if line = i.line then some i else (addImports .empty sources).get? line := Table.get?_insert
      rw [hone]
      by_cases hline : i.line = line
      · simp [hline]
      · rw [if_neg fun h => hline h.symm]
        simp [hline]

theorem mem_addImports {sources : List Import} {line : String} {i : Import}
    (h : (line, i) ∈ (addImports .empty sources).entries) : i ∈ sources ∧ line = i.line := by
  rw [Table.mem_entries_iff, get?_addImports] at h
  have hline := List.find?_some h
  exact ⟨List.mem_reverse.1 (List.mem_of_find?_eq_some h), (of_decide_eq_true hline).symm⟩

theorem exists_mem_addImports {sources : List Import} {i : Import} (h : i ∈ sources) :
    ∃ i', (i.line, i') ∈ (addImports .empty sources).entries := by
  simp only [Table.mem_entries_iff, get?_addImports]
  rw [← Option.isSome_iff_exists, List.find?_isSome]
  exact ⟨i, List.mem_reverse.2 h, by simp⟩

section Sources

variable {lookups : Lookups} {config : Config} {place : String}

theorem imports_sectionFields {endpoint : String} {part : Section} {done : List SectionField}
    {imports : Table Import} {fields : List Field} {out : List SectionField × Table Import}
    (h : sectionFields lookups config place endpoint part done imports fields = .ok out) :
    out.2 = addImports imports ((fields.map (·.type)).filterMap (lookups.source? place)) := by
  induction fields generalizing done imports with
  | nil =>
      rw [sectionFields, Except.ok.injEq] at h
      rw [← h]
      rfl
  | cons f rest ih =>
      obtain ⟨resolved, hresolve, -, h⟩ := sectionFields_cons_eq_ok.1 h
      rw [ih h, addImport_eq, ← addImports_append, Lookups.source_resolve hresolve, List.map_cons,
        List.filterMap_cons]
      cases lookups.source? place f.type <;> rfl

theorem imports_sectionTypes {e : Endpoint} {parts : List Section} {imports : Table Import}
    {out : List SectionType × Table Import}
    (h : sectionTypes lookups config place e imports parts = .ok out) :
    out.2 = addImports imports
      ((parts.flatMap fun part => (e.fieldsOf part).map (·.type)).filterMap (lookups.source? place)) := by
  induction parts generalizing imports out with
  | nil =>
      rw [sectionTypes, Except.ok.injEq] at h
      rw [← h]
      rfl
  | cons part rest ih =>
      rw [List.flatMap_cons, List.filterMap_append, addImports_append]
      rcases sectionTypes_cons_eq_ok.1 h with ⟨hnone, h⟩ | ⟨-, fields, others, hfields, hothers, rfl⟩
      · rw [hnone, ih h]
        rfl
      · have hrest := ih hothers
        rw [imports_sectionFields hfields] at hrest
        exact hrest

/-- The types that an emitted module refers to: those of the fields, if it is typed, and of the result. -/
def typesOf (mode : Mode) (e : Endpoint) : List TypeReference :=
  (if mode = .full then Section.order.flatMap fun part => (e.fieldsOf part).map (·.type) else []) ++
    [e.returns.type]

/-- The imports that those types ask for. -/
def sourcesOf (lookups : Lookups) (config : Config) (e : Endpoint) : List Import :=
  (typesOf config.mode e).filterMap (lookups.source? (config.contractPath (identifier e.verb e.path)))

theorem imports_of_build? {e : Endpoint} {c : Contract} (h : Contract.build? lookups config e = .ok c) :
    c.imports = addImports .empty (sourcesOf lookups config e) := by
  rw [Contract.build?] at h
  obtain ⟨⟨sections, imports⟩, hsections, h⟩ := bind_eq_ok.1 h
  obtain ⟨result, hresult, h⟩ := bind_eq_ok.1 h
  cases h
  have hreturns : [e.returns.type].filterMap (lookups.source? (config.contractPath (identifier e.verb e.path)))
      = (lookups.source? (config.contractPath (identifier e.verb e.path)) e.returns.type).toList := by
    cases hsource : lookups.source? (config.contractPath (identifier e.verb e.path)) e.returns.type <;>
      simp [hsource]
  have himports := imports_sectionTypes hsections
  simp only at himports
  rw [sourcesOf, typesOf, List.filterMap_append, addImports_append, hreturns, addImport_eq,
    Lookups.source_resolve hresult]
  by_cases hfull : config.mode = .full
  · simp only [hfull, if_true, himports]
  · simp only [hfull, if_false]
    rfl

end Sources

/-! ### When the names differ -/

theorem lastComponent_of_line {i i' : Import} (h : i.line = i'.line) :
    lastComponent i.name = lastComponent i'.name := by
  have hline (i : Import) : afterColons i.line.toList = afterColons i.name.toList ++ [';'] := by
    have htext : i.line = "use " ++ i.path ++ "::" ++ i.name ++ ";" := rfl
    have hsplit : i.line.toList = ("use ".toList ++ i.path.toList ++ [':']) ++ ':' :: (i.name.toList ++ [';']) := by
      simp [htext, String.toList_append]
    rw [hsplit, afterColons_behind]
    simp [afterColons]
  have heq := congrArg (fun line : String => afterColons line.toList) h
  simp only [hline, List.append_cancel_right_eq] at heq
  rw [lastComponent, heq, lastComponent]

namespace Contract

theorem importedNames_eq (c : Contract) :
    c.importedNames = libraryNames ++ c.imports.entries.map fun e => lastComponent e.2.name := by
  have hlibrary : c.libraryUses.flatMap Use.names = libraryNames := by
    have hlast : libraryNames.map lastComponent = libraryNames := by decide +kernel
    exact hlast
  rw [importedNames, uses, List.flatMap_append, hlibrary, List.flatMap_map, List.map_eq_flatMap]
  rfl

/-- The names of imports kept by their lines differ from each other and from those of the library exactly when
those of the imports asked for do, lines apart that are written alike. -/
theorem nodup_importedNames_iff {c : Contract} {sources : List Import}
    (h : c.imports = addImports .empty sources) :
    c.importedNames.Nodup ↔ (∀ i ∈ sources, lastComponent i.name ∉ libraryNames)
      ∧ ∀ i ∈ sources, ∀ i' ∈ sources, lastComponent i.name = lastComponent i'.name → i.line = i'.line := by
  have hlibrary : libraryNames.Nodup := by decide +kernel
  have hmem {e : String × Import} (he : e ∈ c.imports.entries) : e.2 ∈ sources ∧ e.1 = e.2.line := by
    rw [h] at he
    exact mem_addImports he
  have hkept {i : Import} (hi : i ∈ sources) :
      ∃ e ∈ c.imports.entries, e.1 = i.line ∧ lastComponent e.2.name = lastComponent i.name := by
    obtain ⟨i', hi'⟩ := exists_mem_addImports hi
    rw [h]
    exact ⟨(i.line, i'), hi', rfl, lastComponent_of_line (mem_addImports hi').2.symm⟩
  rw [importedNames_eq, List.nodup_append', and_iff_right hlibrary,
    List.nodup_map_iff_inj_on c.imports.nodup_keys.of_map, and_comm]
  refine and_congr ?_ ?_
  · constructor
    · intro hdisjoint i hi hname
      obtain ⟨e, he, -, heq⟩ := hkept hi
      exact hdisjoint (heq ▸ hname) (List.mem_map_of_mem he)
    · intro hfree name hname hmap
      obtain ⟨e, he, rfl⟩ := List.mem_map.1 hmap
      exact hfree _ (hmem he).1 hname
  · constructor
    · intro hinj i hi i' hi' hname
      obtain ⟨e, he, hline, heq⟩ := hkept hi
      obtain ⟨e', he', hline', heq'⟩ := hkept hi'
      rw [← hline, ← hline', hinj e he e' he' (heq.trans (hname.trans heq'.symm))]
    · intro hlines e he e' he' hname
      have hline : e.1 = e'.1 := by
        rw [(hmem he).2, (hmem he').2]
        exact hlines _ (hmem he).1 _ (hmem he').1 hname
      have hget := Table.mem_entries_iff.1 he
      rw [hline, Table.mem_entries_iff.1 he', Option.some.injEq] at hget
      exact Prod.ext hline hget.symm

variable {lookups : Lookups} {config : Config} {e : Endpoint} {c : Contract}

theorem line_of_mem_imports (h : build? lookups config e = .ok c) : ∀ entry ∈ c.imports.entries, entry.1 = entry.2.line := by
  intro entry hentry
  rw [imports_of_build? h] at hentry
  exact (mem_addImports hentry).2

/-- The `use` lines of a contract module bring in the names of the library and those of the types its
endpoint refers to. They differ exactly when no type goes by a name of the library, and types that go by one
name are imported by one line. -/
theorem use_names_nodup_iff (h : build? lookups config e = .ok c) :
    c.lines.filter isUse = c.uses.map Use.line
      ∧ c.importedNames = libraryNames ++ c.imports.entries.map (fun entry => lastComponent entry.2.name)
      ∧ (c.importedNames.Nodup
        ↔ (∀ i ∈ sourcesOf lookups config e, lastComponent i.name ∉ libraryNames)
          ∧ ∀ i ∈ sourcesOf lookups config e, ∀ i' ∈ sourcesOf lookups config e,
              lastComponent i.name = lastComponent i'.name → i.line = i'.line) := by
  have himports : c.imports = addImports .empty (sourcesOf lookups config e) := imports_of_build? h
  exact ⟨filter_isUse_lines (line_of_mem_imports h), importedNames_eq c, nodup_importedNames_iff himports⟩

def draftedUser : Endpoint where
  verb := .post
  path := "/user"
  body := some [{ key := "user", type := .table "User" }, { key := "draft", type := .schema "User" },
    { key := "role", type := .enum "Role" }]
  returns := { type := .table "User", array := true }

/-- A model and a schema of one name, at one place, are imported once. -/
theorem use_names_nodup_shared_type :
    ∃ c, build? ⟨.ofList [("User", "./type/User"), ("Role", "./type/Role")], .ofList [("User", "type/User")]⟩ {}
        draftedUser = .ok c
      ∧ c.importedNames = libraryNames ++ ["Role", "User"] ∧ c.importedNames.Nodup := by
  have hok : (build? ⟨.ofList [("User", "./type/User"), ("Role", "./type/Role")], .ofList [("User", "type/User")]⟩ {}
      draftedUser).isOk = true := by decide +kernel
  obtain ⟨c, hc⟩ := isOk_iff.1 hok
  obtain ⟨-, hnames, hnodup⟩ := use_names_nodup_iff hc
  rw [imports_of_build? hc] at hnames
  refine ⟨c, hc, ?_, ?_⟩
  · rw [hnames]
    decide +kernel
  · rw [hnodup]
    decide +kernel

/-- A model and a schema of one name, at two places. -/
theorem accepted_import_names_clash :
    ∃ c, build? ⟨.ofList [("User", "./model/table/User"), ("Role", "./model/enum/Role")],
        .ofList [("User", "./schema/User")]⟩ {} draftedUser = .ok c
      ∧ c.lines.filter isUse = c.uses.map Use.line ∧ c.importedNames.count "User" = 2 := by
  have hok : (build? ⟨.ofList [("User", "./model/table/User"), ("Role", "./model/enum/Role")],
      .ofList [("User", "./schema/User")]⟩ {} draftedUser).isOk = true := by decide +kernel
  obtain ⟨c, hc⟩ := isOk_iff.1 hok
  refine ⟨c, hc, ?_, ?_⟩
  · exact filter_isUse_lines (line_of_mem_imports hc)
  · rw [importedNames_eq, imports_of_build? hc]
    decide +kernel

end Contract

end ApiContracts.Compile

import ApiContracts.Compile.Config
import ApiContracts.Compile.Resolve

/-!
# Contract modules

One emitted module per endpoint: a type per section, the request and result types, the rules, and the descriptor that business code fills in. `Contract.build?` decides what the module declares; `Contract.lines` writes it down. A section without fields is left out, and so is everything typed about the request in minimal mode, where the types must still resolve.
-/

namespace ApiContracts.Compile

open Text

structure Artifact where
  name : String
  path : String
  content : String
  deriving DecidableEq

/-- The text of lines, each ended. -/
def sourceText (lines : List String) : String := "\n".intercalate lines ++ "\n"

/-- The first line of every emitted file. -/
def banner : String := "// @generated by abstractapi-gen. Do not edit."

/-- A field of an emitted section type, with its rule. -/
structure SectionField where
  name : FieldName
  key : String
  type : WrappedType
  rule : FieldRule String
  deriving DecidableEq

structure SectionType where
  part : Section
  fields : List SectionField
  deriving DecidableEq

structure Contract where
  verb : Verb
  path : String
  config : Config
  imports : Table Import
  sections : List SectionType
  result : WrappedType

namespace Contract

def identifier (c : Contract) : String := Compile.identifier c.verb c.path

def endpoint (c : Contract) : String := c.verb.wireName ++ " " ++ c.path

def modulePath (c : Contract) : String := c.config.contractPath c.identifier

def isMinimal (c : Contract) : Bool := c.config.mode = .minimal

def rules (c : Contract) : List (SectionRules String) := c.sections.map fun s => ⟨s.part, s.fields.map (·.rule)⟩

def typeName (c : Contract) (s : SectionType) : String := s!"{c.identifier}_{s.part.typeName}"

/-- The rename that keeps the key of a field, where its name differs. -/
def renameLines (f : SectionField) : List String :=
  if f.name.renamed then [s!"    #[serde(rename = {quote f.key})]"] else []

def fieldLines (f : SectionField) : List String :=
  renameLines f ++
    (if f.type.optional then ["    #[serde(default, skip_serializing_if = \"Option::is_none\")]"] else []) ++
    [s!"    pub {f.name.text}: {f.type.typeText},"]

def derives : String := "#[derive(Debug, Clone, Serialize, Deserialize)]"

def sectionTypeLines (c : Contract) (s : SectionType) : List String :=
  ["", derives, s!"pub struct {c.typeName s} \x7b"] ++ s.fields.flatMap fieldLines ++ ["\x7d"]

def rulesLines (s : SectionType) : List String :=
  ["", s!"const {s.part.rulesName}: &[FieldRule] = &["] ++ s.fields.map (fun f => s!"    {f.rule.expression},") ++ ["];"]

def requestLines (c : Contract) : List String :=
  if c.isMinimal then ["", s!"pub type {c.identifier}_Req = RawParams;"]
  else
    c.sections.flatMap c.sectionTypeLines ++ ["", derives, s!"pub struct {c.identifier}_Req \x7b"] ++
      c.sections.map (fun s => s!"    pub {s.part.name}: {c.typeName s},") ++ ["\x7d"] ++
      c.sections.flatMap rulesLines ++ ["", "const SECTIONS: &[SectionSpec] = &["] ++
      c.sections.map (fun s => s!"    SectionSpec::new(Section::{s.part.typeName}, {s.part.rulesName}),") ++ ["];"]

def endpointLine (c : Contract) : String := s!"    const ENDPOINT: &'static str = {quote c.endpoint};"

def commentLine (c : Contract) : String := s!"/// `{c.endpoint}`"

def lines (c : Contract) : List String :=
  let id := c.identifier
  let mode := if c.isMinimal then "PassThrough" else "Typed"
  let utility := relativePath c.modulePath c.config.utilityPath
  [banner, "#![allow(non_camel_case_types, non_snake_case, dead_code, unused_imports)]", "",
    "use serde::\x7bDeserialize, Serialize\x7d;",
    s!"use {c.config.runtime}::typed::\x7bContract, ContractMode, EndpointDescriptor, HandlerError, RawParams\x7d;",
    s!"use {c.config.runtime}::validator::\x7bconforms, is_member, Check, FieldRule, Section, SectionSpec\x7d;",
    s!"use {utility}::\x7berror, ErrorFn\x7d;"] ++
  c.imports.keys ++ c.requestLines ++
  ["", s!"pub type {id}_Res = {c.result.typeText};", "", s!"pub struct {id}_Contract;", "",
    s!"impl Contract for {id}_Contract \x7b", c.endpointLine,
    s!"    const MODE: ContractMode = ContractMode::{mode};", s!"    type Request = {id}_Req;",
    s!"    type Response = {id}_Res;"] ++
  (if c.isMinimal then []
    else ["", "    fn sections() -> &'static [SectionSpec] \x7b", "        SECTIONS", "    \x7d"]) ++
  ["\x7d", "", c.commentLine, s!"pub struct {id}(pub EndpointDescriptor<{id}_Contract>);", "", s!"impl {id} \x7b",
    "    pub fn new<F>(f: F) -> Self", "    where",
    s!"        F: Fn({id}_Req, ErrorFn) -> Result<{id}_Res, HandlerError> + Send + Sync + 'static,", "    \x7b",
    "        Self(EndpointDescriptor::new(move |req| f(req, error)))", "    \x7d", "\x7d"]

def artifact (c : Contract) : Artifact := ⟨c.identifier, sourceFile c.modulePath, sourceText c.lines⟩

end Contract

/-- Imports are listed by their lines, each line once. -/
def addImport (imports : Table Import) : Option Import → Table Import
  | some i => imports.insert i.line i
  | none => imports

/-- The fields of a section after those in `done`, with what they import. In full mode two keys may not share a name. -/
def sectionFields (lookups : Lookups) (config : Config) (place endpoint : String) (part : Section)
    (done : List SectionField) (imports : Table Import) : List Field → Except Fault (List SectionField × Table Import)
  | [] => .ok (done, imports)
  | f :: rest => do
    let resolved ← lookups.resolve place endpoint f.type
    let name := fieldName f.key
    if config.mode = .full then
      if let some first := done.find? fun d => d.name.text == name.text then
        throw (.duplicateField endpoint part name.text first.key f.key)
    let field : SectionField :=
      ⟨name, f.key, ⟨resolved.base, f.array, !f.required⟩, ⟨f.key, resolved.check, f.required, f.array⟩⟩
    sectionFields lookups config place endpoint part (done ++ [field]) (addImport imports resolved.source) rest

/-- The section types of an endpoint, in order, with what they import. -/
def sectionTypes (lookups : Lookups) (config : Config) (place : String) (e : Endpoint) (imports : Table Import) :
    List Section → Except Fault (List SectionType × Table Import)
  | [] => .ok ([], imports)
  | part :: rest =>
    match e.fieldsOf part with
    | [] => sectionTypes lookups config place e imports rest
    | fields => do
      let (types, imports) ← sectionFields lookups config place e.key part [] imports fields
      let (others, imports) ← sectionTypes lookups config place e imports rest
      return (⟨part, types⟩ :: others, imports)

def Contract.build? (lookups : Lookups) (config : Config) (e : Endpoint) : Except Fault Contract := do
  let place := config.contractPath (Compile.identifier e.verb e.path)
  let (sections, imports) ← sectionTypes lookups config place e .empty Section.order
  let result ← lookups.resolve place e.key e.returns.type
  let typed := config.mode = .full
  return {
    verb := e.verb
    path := e.path
    config
    imports := addImport (if typed then imports else .empty) result.source
    sections := if typed then sections else []
    result := ⟨result.base, e.returns.array, !e.returns.required⟩ }

end ApiContracts.Compile

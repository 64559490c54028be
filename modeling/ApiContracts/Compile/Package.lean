import ApiContracts.Compile.Server
import ApiContracts.Compile.Utility
import ApiContracts.Json.Printer

/-!
# Packages

All files that a description compiles to, with a manifest of where each named module is. Contracts come first, in the order of their endpoints, then the error utility, the server and the two module indexes. Compilation stops at the first endpoint whose contract fails or takes the name of an earlier one.
-/

namespace ApiContracts.Compile

open Json

abbrev Manifest := Table String

namespace Manifest

/-- The manifest with one more module; a repeated name keeps the latest path. -/
def record (m : Manifest) (name path : String) : Manifest := m.insert name path

def toJson (m : Manifest) : Value := .obj (m.entries.map fun (name, path) => (name, .str path))

def text (m : Manifest) : String := m.toJson.pretty

end Manifest

/-- The lines of a module that only declares others. -/
def indexLines (modules : List String) : List String :=
  [banner, "#![allow(non_snake_case)]"] ++ modules.map fun m => s!"pub mod {m};"

def indexArtifacts (config : Config) (contracts : List Contract) : List Artifact :=
  [⟨"mod", s!"{config.root}/mod.rs", sourceText (indexLines ["api", "server", "utility"])⟩,
    ⟨"api/mod", s!"{config.root}/api/mod.rs", sourceText (indexLines (contracts.map (·.identifier)))⟩]

def sharedArtifacts (config : Config) (contracts : List Contract) : List Artifact :=
  [ServerModule.artifact ⟨config, contracts⟩, utilityArtifact config] ++ indexArtifacts config contracts

structure Package where
  files : List Artifact
  manifest : Manifest

namespace Package

/-- The contracts of endpoints after those in `done`; the names of contracts are distinct. -/
def contracts (lookups : Lookups) (config : Config) (done : List Contract) : List Endpoint → Except Fault (List Contract)
  | [] => .ok done
  | e :: rest => do
    let c ← Contract.build? lookups config e
    match done.find? fun d => d.identifier == c.identifier with
    | some first => throw (.duplicateContract c.identifier first.endpoint c.endpoint)
    | none => contracts lookups config (done ++ [c]) rest

/-- The modules of a package: the contracts, the utility and the server. -/
def manifestOf (config : Config) (contracts : List Contract) : Manifest :=
  let listed := contracts.foldl (fun m c => Manifest.record m c.identifier c.modulePath) Table.empty
  Manifest.record (Manifest.record listed "utility" config.utilityPath) "server" config.serverPath

def ofContracts (config : Config) (contracts : List Contract) : Package where
  files :=
    contracts.map (·.artifact) ++ [utilityArtifact config, ServerModule.artifact ⟨config, contracts⟩] ++
      indexArtifacts config contracts
  manifest := manifestOf config contracts

def compile (lookups : Lookups) (config : Config) (endpoints : List Endpoint) : Except Fault Package :=
  (contracts lookups config [] endpoints).map (ofContracts config)

end Package

/-- What an endpoint compiles to, on one line. -/
def inspectLine (config : Config) (e : Endpoint) : String :=
  let id := identifier e.verb e.path
  s!"{e.key} → {id} → {sourceFile (config.contractPath id)}"

end ApiContracts.Compile

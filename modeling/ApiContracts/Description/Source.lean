import ApiContracts.Description.Reading
import ApiContracts.Description.Lookup
import ApiContracts.FileTree.Path
import ApiContracts.Yaml.Document

/-!
# Descriptions and look-up tables from text

A file's extension tells its notation: YAML for `yaml` and `yml`, JSON for every other. A document of the wrong shape is reported before what stands behind it.
-/

namespace ApiContracts.Description

open Json

inductive Cause where
  | json (e : ReadError)
  | yaml (f : Yaml.Fault)
  /-- A well-formed document that is no description. -/
  | wrongShape

def Cause.message : Cause → String
  | json e => e.message
  | yaml f => f.message
  | wrongShape => notADescription

inductive Format where
  | json
  | yaml
  deriving DecidableEq

def Format.name : Format → String
  | json => "JSON"
  | yaml => "YAML"

def Format.ofPath (path : String) : Format :=
  match Path.extension? path with
  | some "yaml" | some "yml" => yaml
  | _ => json

def endpointsOf (v : Node) : Except Cause (List Endpoint) := (endpointsOf? v).elim (.error .wrongShape) .ok

def readJson (text : String) : Except Cause (List Endpoint) := do
  let (v, c) ← (readValue (.ofString text)).mapError .json
  let endpoints ← endpointsOf (Node.ofJson v)
  (readEnd c).mapError .json
  return endpoints

def readYaml (text : String) : Except Cause (List Endpoint) := do
  let document := Yaml.FirstDocument.ofText text
  let v ← (document.tree.bind Yaml.Tree.node?).mapError .yaml
  let endpoints ← endpointsOf v
  document.behind.mapError .yaml
  return endpoints

def read (path text : String) : Except Cause (List Endpoint) :=
  match Format.ofPath path with
  | .json => readJson text
  | .yaml => readYaml text

def readYamlLookup (text : String) : Except Yaml.Fault (Table String) := do
  let document := Yaml.FirstDocument.ofText text
  let table ← document.tree.bind Yaml.Tree.textTable
  document.behind
  return table

def readLookup (path text : String) : Except Cause (Table String) :=
  match Format.ofPath path with
  | .json => (readJsonLookup text).mapError .json
  | .yaml => (readYamlLookup text).mapError .yaml

def unreadable (path : String) : String := s!"Failed to parse {(Format.ofPath path).name} from {path}"

end ApiContracts.Description

import ApiContracts.CommandLine.Arguments
import ApiContracts.Compile.ConfigFile
import ApiContracts.Compile.Package
import ApiContracts.Description.Source
import ApiContracts.FileTree.Basic
import ApiContracts.Log.Settings

/-!
# Running a command

A command first reads its inputs and decides on all steps it will take: directories to make, files to write and lines to say. Only then are the steps taken, one after the other up to the first that fails. A command that fails before, or is only to show what it would do, has no steps that write.
-/

namespace ApiContracts.CommandLine

open Compile

inductive Failure where
  | unreadableConfig (path : String) (fault : SystemFault)
  | invalidConfig (path : String)
  | unreadableDescription (path : String) (fault : SystemFault)
  | unreadableLookup (path : String) (fault : SystemFault)
  /-- A description or a look-up table that is none. -/
  | malformed (path : String) (cause : Description.Cause)
  /-- A description that does not compile. -/
  | refused (path : String) (fault : Compile.Fault)
  | noDirectory (path : String) (fault : SystemFault)
  | notWritten (path : String) (fault : SystemFault)

/-- What is said about a failure, the outermost context first. -/
def Failure.message : Failure → String
  | unreadableConfig path fault => s!"Failed to read generator config {path}: {fault.message}"
  | invalidConfig path => s!"Invalid generator config {path}"
  | unreadableDescription path fault => s!"Failed to read API description {path}: {fault.message}"
  | unreadableLookup path fault => s!"Failed to read lookup table {path}: {fault.message}"
  | malformed path cause => s!"{Description.unreadable path}: {cause.message}"
  | refused path fault => s!"Failed to generate from {Path.shown path}: {fault.message}"
  | noDirectory path fault => s!"Failed to create directory {Path.shown path}: {fault.message}"
  | notWritten path fault => s!"Failed to write {Path.shown path}: {fault.message}"

abbrev Reading := String → Except SystemFault String

def ConfigOptions.resolve (o : ConfigOptions) (read : Reading) : Except Failure Config := do
  let config ← match o.file with
    | none => pure {}
    | some path => do
      let content ← (read path).mapError (.unreadableConfig path)
      (Config.ofToml? content).elim (.error (.invalidConfig path)) .ok
  return {
    root := o.root.getD config.root
    runtime := o.runtime.getD config.runtime
    mode := o.mode.getD config.mode }

def readEndpoints (read : Reading) (path : String) : Except Failure (List Endpoint) := do
  let content ← (read path).mapError (.unreadableDescription path)
  (Description.read path content).mapError (.malformed path)

/-- A look-up table; without a file it is empty. -/
def readLookup (read : Reading) : Option String → Except Failure (Table String)
  | none => .ok .empty
  | some path => do
    let content ← (read path).mapError (.unreadableLookup path)
    (Description.readLookup path content).mapError (.malformed path)

inductive Step where
  | makeDirectories (path : String)
  | write (path content : String)
  | say (line : String)
  deriving DecidableEq

structure Output where
  name : String
  path : String
  content : String
  deriving DecidableEq

/-- The files of a package under a directory, the manifest last. -/
def outputs (directory : String) (config : Config) (package : Package) : List Output :=
  package.files.map (fun a => ⟨a.name, Path.join directory a.path, a.content⟩) ++
    [⟨"manifest", Path.join (Path.join directory config.root) "manifest.json", package.manifest.text ++ "\n"⟩]

def Output.writing (o : Output) : List Step :=
  ((Path.parent? o.path).map Step.makeDirectories).toList ++
    [.write o.path o.content, .say s!"✅ Generated {o.name}: {Path.shown o.path}"]

def Output.announcing (o : Output) : List Step := [.say s!"📝 Would write {Path.shown o.path}"]

/-- The last line of a command that generates. -/
def summary (package : Package) : String :=
  s!"✅ {package.files.length} artifacts, {package.manifest.size} manifest entries"

def generateSteps (read : Reading) (o : GenerateOptions) (config : Config) : Except Failure (List Step) := do
  let endpoints ← readEndpoints read o.spec
  let models ← readLookup read o.models
  let schemas ← readLookup read o.schemas
  let package ← (Package.compile ⟨models, schemas⟩ config endpoints).mapError (.refused o.spec)
  let files := outputs o.output config package
  return files.flatMap (if o.dryRun then Output.announcing else Output.writing) ++ [.say (summary package)]

def inspectSteps (read : Reading) (spec : String) (config : Config) : Except Failure (List Step) := do
  let endpoints ← readEndpoints read spec
  return endpoints.map fun e => .say (inspectLine config e)

def Command.steps (read : Reading) : Command → Except Failure (List Step)
  | .help => .ok [.say purpose]
  | .generate options config => do generateSteps read options (← config.resolve read)
  | .inspect spec config => do inspectSteps read spec (← config.resolve read)

def Command.inputs : Command → List String
  | .help => []
  | .generate o config => config.file.toList ++ [o.spec] ++ o.models.toList ++ o.schemas.toList
  | .inspect spec config => config.file.toList ++ [spec]

/-- What steps lead to: the disk, the lines said, and the failure that ended them. -/
structure Outcome where
  disk : Disk
  lines : List String := []
  failure : Option Failure := none

/-- Takes steps up to the first that fails. -/
def takeSteps (d : Disk) : List Step → Outcome
  | [] => { disk := d }
  | .say line :: rest =>
    let o := takeSteps d rest
    { o with lines := line :: o.lines }
  | .makeDirectories path :: rest =>
    match d.makeDirectories path with
    | .ok d => takeSteps d rest
    | .error fault => { disk := d, failure := some (.noDirectory path fault) }
  | .write path content :: rest =>
    match d.write path content with
    | .ok d => takeSteps d rest
    | .error fault => { disk := d, failure := some (.notWritten path fault) }

def Command.run (c : Command) (d : Disk) : Outcome :=
  match c.steps d.read with
  | .ok steps => takeSteps d steps
  | .error failure => { disk := d, failure := some failure }

/-- The settings of logging: those of the environment if it names a level. -/
def logSettings (env : Environment) : Log.Settings :=
  if (env.lookup "ABSTRACTAPI_LOG_LEVEL").isSome then Log.Settings.ofEnvironment env else .development

def failureLine (f : Failure) : String := s!"❌ {f.message}"

end ApiContracts.CommandLine

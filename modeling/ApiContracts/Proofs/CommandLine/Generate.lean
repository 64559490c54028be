import ApiContracts.Proofs.CommandLine.Outputs

/-!
# All of a package or nothing

A command that generates reads its inputs, compiles them and only then takes steps, so a fault in the inputs comes
before anything is written; and a dry run has no step that writes. When it writes, no two files share a place: the
files of a package lie under one place by names that tell them apart, none of them the name of the manifest,
whatever the root is. So each file is there with its content at the end, and as the inputs that are stored
elsewhere are read as before, the command may be run again and comes to the same.
-/

namespace ApiContracts.CommandLine

open Compile ApiContracts.Path

/-! ### Steps from inputs -/

/-- What the files that a command names hold: settings, endpoints and look-up tables. -/
structure Loads (read : Reading) (o : GenerateOptions) (options : ConfigOptions) (config : Config)
    (endpoints : List Endpoint) (lookups : Lookups) : Prop where
  config : options.resolve read = .ok config
  endpoints : readEndpoints read o.spec = .ok endpoints
  models : readLookup read o.models = .ok lookups.models
  schemas : readLookup read o.schemas = .ok lookups.schemas

variable {read read' : Reading} {o : GenerateOptions} {options : ConfigOptions}

theorem isOk_of_readLookup {lookup : Option String} {table : Table String} (h : readLookup read lookup = .ok table) :
    ∀ path ∈ lookup, ∃ content, read path = .ok content := by
  rintro path rfl
  obtain ⟨content, hcontent, -⟩ := bind_eq_ok.1 h
  exact ⟨content, mapError_eq_ok.1 hcontent⟩

theorem Loads.inputs {config : Config} {endpoints : List Endpoint} {lookups : Lookups}
    (h : Loads read o options config endpoints lookups) :
    ∀ path ∈ (Command.generate o options).inputs, ∃ content, read path = .ok content := by
  simp only [Command.inputs, List.forall_mem_append, Option.mem_toList, List.forall_mem_singleton]
  refine ⟨⟨⟨?_, ?_⟩, isOk_of_readLookup h.models⟩, isOk_of_readLookup h.schemas⟩
  · intro path hfile
    have hresolve := h.config
    rw [ConfigOptions.resolve, Option.mem_def.1 hfile] at hresolve
    obtain ⟨content, hcontent, -⟩ := bind_eq_ok.1 hresolve
    exact ⟨content, mapError_eq_ok.1 hcontent⟩
  · obtain ⟨content, hcontent, -⟩ := bind_eq_ok.1 h.endpoints
    exact ⟨content, mapError_eq_ok.1 hcontent⟩

/-! ### Places of outputs -/

section Runs

variable {config : Config} {endpoints : List Endpoint} {lookups : Lookups} {package : Package} {d : Disk}

/-- What a run leaves that writes a package: each file with its content, nothing else that differs, and nothing
to do for another run. -/
structure Writes (o : GenerateOptions) (options : ConfigOptions) (config : Config) (package : Package) (d : Disk)
    (after : Outcome) : Prop where
  files : ∀ a ∈ package.files, after.disk.read (join o.output a.path) = .ok a.content
  manifest : after.disk.read (join (join o.output config.root) "manifest.json") = .ok (package.manifest.text ++ "\n")
  others : Disk.ChangesOnly ((outputs o.output config package).map fun out => place d.working out.path) d after.disk
  /-- When no input is stored where a file was written. -/
  again : (∀ input ∈ (Command.generate o options).inputs, ∀ out ∈ outputs o.output config package,
    place d.working input ≠ place d.working out.path) → (Command.generate o options).run after.disk = after

end Runs

end ApiContracts.CommandLine

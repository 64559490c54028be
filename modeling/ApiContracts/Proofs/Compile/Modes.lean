import ApiContracts.Proofs.Compile.Acceptance
import ApiContracts.Proofs.Compile.Packaging

/-!
# Typed and plain packages

In minimal mode the sections of an endpoint are still resolved, but nobody asks whether two fields share a
name, and nothing typed is written about them. This is all that the mode decides. What a package has beside
its contracts is made from their faces, which a contract takes from its endpoint and the root alone: so both
modes have the same manifest, the same paths and the same four other files. And a description that only the
minimal mode accepts has all its types and all its names of contracts in order, so that full mode can find
fault with nothing but the name of a field.
-/

namespace ApiContracts.Compile

open Text

namespace Contract

/-- What a contract shows to the other modules of its package: its name, its key and where it is. -/
def face (c : Contract) : String × String × String := (c.identifier, c.endpoint, c.modulePath)

theorem face_of_build? {lookups : Lookups} {config : Config} {e : Endpoint} {c : Contract}
    (h : build? lookups config e = .ok c) :
    c.face = (Compile.identifier e.verb e.path, e.key, config.contractPath (Compile.identifier e.verb e.path)) := by
  rw [face, modulePath_of_build? h, identifier_of_build? h, endpoint_of_build? h]

end Contract

section Faces

variable {contracts others : List Contract}

theorem map_eq_of_keys {κ β : Type} {key : Contract → κ} {f g : Contract → β}
    (hkeys : others.map key = contracts.map key) (hfg : ∀ c d, key d = key c → g d = f c) :
    others.map g = contracts.map f := by
  induction contracts generalizing others with
  | nil =>
      rw [List.map_nil, List.map_eq_nil_iff] at hkeys
      rw [hkeys, List.map_nil, List.map_nil]
  | cons c contracts ih =>
      obtain ⟨d, others, rfl, hkey, hrest⟩ := List.map_eq_cons_iff.1 hkeys
      rw [List.map_cons, List.map_cons, hfg c d hkey, ih hrest]

variable (hfaces : others.map (·.face) = contracts.map (·.face))
include hfaces

theorem identifiers_eq_of_faces : others.map (·.identifier) = contracts.map (·.identifier) := by
  apply map_eq_of_keys hfaces
  intro c d hface
  exact congrArg (·.1) hface

/-- A server is made from the faces of its contracts, the root and the name of its library. -/
theorem ServerModule.lines_eq_of_faces {config config' : Config} (hroot : config'.root = config.root)
    (hruntime : config'.runtime = config.runtime) :
    (ServerModule.mk config' others).lines = (ServerModule.mk config contracts).lines := by
  have hnames : others.map (·.identifier) = contracts.map (·.identifier) := identifiers_eq_of_faces hfaces
  have himports : others.map (importLine ⟨config', others⟩) = contracts.map (importLine ⟨config, contracts⟩) := by
    apply map_eq_of_keys hfaces
    intro c d hface
    have hname : d.identifier = c.identifier := congrArg (·.1) hface
    have hplace : d.modulePath = c.modulePath := congrArg (·.2.2) hface
    rw [importLine, importLine, hname, hplace, Config.serverPath, Config.serverPath, hroot]
  have hvariants : others.map variantLine = contracts.map variantLine := by
    apply map_eq_of_keys hnames
    intro c d hname
    rw [variantLine, variantLine, hname]
  have hconversions : others.map conversionLines = contracts.map conversionLines := by
    apply map_eq_of_keys hnames
    intro c d hname
    rw [conversionLines, conversionLines, hname]
  have hlookups : others.map lookupLine = contracts.map lookupLine := by
    apply map_eq_of_keys hfaces
    intro c d hface
    have hname : d.identifier = c.identifier := congrArg (·.1) hface
    have hkey : d.endpoint = c.endpoint := congrArg (·.2.1) hface
    rw [lookupLine, lookupLine, hname, hkey]
  have harms : others.map implementLine = contracts.map implementLine := by
    apply map_eq_of_keys hnames
    intro c d hname
    unfold implementLine
    rw [hname]
  simp only [lines, List.flatMap_def, himports, hvariants, hconversions, hlookups, harms, hruntime]

end Faces

section Accepted

variable {lookups : Lookups} {endpoints : List Endpoint}

theorem Accepted.minimal (h : Accepted lookups .full endpoints) : Accepted lookups .minimal endpoints := by
  refine ⟨?_, h.names⟩
  intro e he
  have hfull := h.each e he
  exact ⟨hfull.fields, fun hmode => Mode.noConfusion hmode, hfull.result⟩

/-- Two fields of one section that go by one name, and the fault that reports them. -/
def NamesClash (e : Endpoint) (fault : Fault) : Prop :=
  ∃ part, ∃ d ∈ e.fieldsOf part, ∃ f ∈ e.fieldsOf part, (fieldName d.key).text = (fieldName f.key).text
    ∧ fault = .duplicateField e.key part (fieldName f.key).text d.key f.key

theorem namesClash_of_sectionFails {mode : Mode} {e : Endpoint} {fault : Fault}
    (hknown : ∀ part, ∀ f ∈ e.fieldsOf part, lookups.Knows f.type) (h : SectionFails lookups mode e fault) :
    NamesClash e fault := by
  obtain ⟨-, part, -, -, -, before, f, after, hfields, -, hfails⟩ := h
  have hf : f ∈ e.fieldsOf part := by
    rw [hfields]
    exact List.mem_append_right _ List.mem_cons_self
  cases hfails with
  | type hunknown => exact absurd (hknown part f hf) hunknown
  | @name _ _ d hd hname =>
      have hd' : d ∈ e.fieldsOf part := by
        rw [hfields]
        exact List.mem_append_left _ hd
      exact ⟨part, d, hd', f, hf, hname, rfl⟩

theorem namesClash_of_firstFailure {fault : Fault} (haccepted : Accepted lookups .minimal endpoints)
    (h : FirstFailure (EndpointFails lookups .full) endpoints fault) : ∃ e ∈ endpoints, NamesClash e fault := by
  obtain ⟨before, e, after, rfl, -, hfails⟩ := h
  have he : e ∈ before ++ e :: after := List.mem_append_right _ List.mem_cons_self
  have heach := haccepted.each e he
  refine ⟨e, he, ?_⟩
  cases hfails with
  | field hfield => exact namesClash_of_sectionFails heach.fields hfield
  | result _ hunknown => exact absurd heach.result hunknown
  | @name _ _ d hd hname =>
      have hnames := haccepted.names
      rw [List.map_append, List.map_cons, List.nodup_middle, List.nodup_cons] at hnames
      have htaken : identifier e.verb e.path ∈ before.map fun e => identifier e.verb e.path :=
        List.mem_map.2 ⟨d, hd, hname⟩
      exact absurd (List.mem_append_left _ htaken) hnames.1

end Accepted

namespace Package

variable {lookups : Lookups} {config config' : Config} {endpoints : List Endpoint}

/-- Packages of one description from one root, for one library, agree in all that they have beside the contents
of the contracts. -/
theorem agree_of_contracts {contracts others : List Contract} (hroot : config'.root = config.root)
    (hruntime : config'.runtime = config.runtime) (h : Contracts lookups config endpoints contracts)
    (h' : Contracts lookups config' endpoints others) :
    (ofContracts config' others).manifest = (ofContracts config contracts).manifest
      ∧ (ofContracts config' others).files.map (·.path) = (ofContracts config contracts).files.map (·.path)
      ∧ (ofContracts config' others).files.drop endpoints.length
        = (ofContracts config contracts).files.drop endpoints.length := by
  have hfaces : others.map (·.face) = contracts.map (·.face) := by
    rw [map_of_built h'.built fun _ _ hbuild => Contract.face_of_build? hbuild,
      map_of_built h.built fun _ _ hbuild => Contract.face_of_build? hbuild]
    simp only [Config.contractPath, hroot]
  have hnames : others.map (·.identifier) = contracts.map (·.identifier) := identifiers_eq_of_faces hfaces
  have hserver : ServerModule.artifact ⟨config', others⟩ = ServerModule.artifact ⟨config, contracts⟩ := by
    simp only [ServerModule.artifact, Config.serverPath, hroot,
      ServerModule.lines_eq_of_faces hfaces hroot hruntime]
  have hutility : utilityArtifact config' = utilityArtifact config := by
    simp only [utilityArtifact, utilityLines, Config.utilityPath, hroot, hruntime]
  have hindexes : indexArtifacts config' others = indexArtifacts config contracts := by
    rw [indexArtifacts, indexArtifacts, hroot, hnames]
  refine ⟨?_, ?_, ?_⟩
  · refine manifestOf_congr h.config_eq h'.config_eq hroot ?_
    intro name
    rw [hnames]
  · rw [paths_ofContracts h'.config_eq, paths_ofContracts h.config_eq, hnames, hroot]
  · rw [drop_files h'.length_eq, drop_files h.length_eq, hserver, hutility, hindexes]

/-- A description that compiles in full mode compiles in minimal mode, to a package that differs in the contents
of the contracts alone. Only a name that two fields of one section share keeps a description that compiles in
minimal mode from compiling in full mode. -/
theorem full_minimal_agree (lookups : Lookups) (config : Config) (endpoints : List Endpoint) :
    (∀ p, compile lookups { config with mode := .full } endpoints = .ok p →
        ∃ q, compile lookups { config with mode := .minimal } endpoints = .ok q
          ∧ q.manifest = p.manifest ∧ q.files.map (·.path) = p.files.map (·.path)
          ∧ q.files.drop endpoints.length = p.files.drop endpoints.length
          ∧ (p.files.drop endpoints.length).map (·.name) = ["utility", "server", "mod", "api/mod"])
      ∧ ∀ q fault, compile lookups { config with mode := .minimal } endpoints = .ok q →
          compile lookups { config with mode := .full } endpoints = .error fault →
            ∃ e ∈ endpoints, NamesClash e fault := by
  constructor
  · intro p hp
    have haccepted : Accepted lookups .full endpoints := isOk_compile.1 (isOk_iff.2 ⟨p, hp⟩)
    have hok : (compile lookups { config with mode := .minimal } endpoints).isOk = true :=
      isOk_compile.2 haccepted.minimal
    obtain ⟨q, hq⟩ := isOk_iff.1 hok
    obtain ⟨contracts, hcontracts, rfl⟩ := compile_eq_ok.1 hp
    obtain ⟨others, hothers, rfl⟩ := compile_eq_ok.1 hq
    obtain ⟨hmanifest, hpaths, hrest⟩ := @agree_of_contracts lookups { config with mode := .full }
      { config with mode := .minimal } endpoints contracts others rfl rfl hcontracts hothers
    refine ⟨_, hq, hmanifest, hpaths, hrest, ?_⟩
    rw [drop_files hcontracts.length_eq]
    rfl
  · intro q fault hq hfault
    have haccepted : Accepted lookups .minimal endpoints := isOk_compile.1 (isOk_iff.2 ⟨q, hq⟩)
    exact namesClash_of_firstFailure haccepted (compile_eq_error.1 hfault)

/-- An endpoint of which only the minimal mode can be had, behind one that compiles in both. -/
def clashing : Endpoint where
  verb := .post
  path := "/user"
  headers := some [{ key := "x-id", type := .native "text" }, { key := "x.id", type := .native "uuid" }]
  returns := { type := .native "string" }

theorem full_minimal_agree_clashing :
    (∃ p q, compile {} { root := "out" } [.answeringText .put "/user/:id"] = .ok p
        ∧ compile {} { root := "out", mode := .minimal } [.answeringText .put "/user/:id"] = .ok q
        ∧ q.files.drop 1 = p.files.drop 1)
      ∧ ∃ q, compile {} { mode := .minimal } [.answeringText .get "/a", clashing] = .ok q
        ∧ compile {} {} [.answeringText .get "/a", clashing]
          = .error (.duplicateField "POST /user" .headers "x_id" "x-id" "x.id")
        ∧ NamesClash clashing (.duplicateField "POST /user" .headers "x_id" "x-id" "x.id") := by
  have hok : (compile {} { root := "out" } [.answeringText .put "/user/:id"]).isOk = true := by decide +kernel
  have hminimal : (compile {} { mode := .minimal } [.answeringText .get "/a", clashing]).isOk = true := by
    decide +kernel
  have hfull : compile {} {} [.answeringText .get "/a", clashing]
      = .error (.duplicateField "POST /user" .headers "x_id" "x-id" "x.id") := by rfl
  obtain ⟨p, hp⟩ := isOk_iff.1 hok
  obtain ⟨q, hq, -, -, hrest, -⟩ := (full_minimal_agree {} { root := "out" } _).1 p hp
  obtain ⟨r, hr⟩ := isOk_iff.1 hminimal
  obtain ⟨e, he, hclash⟩ := (full_minimal_agree {} {} _).2 r _ hr hfull
  refine ⟨⟨p, q, hp, hq, hrest⟩, r, hr, hfull, ?_⟩
  rcases List.mem_cons.1 he with rfl | he
  · obtain ⟨part, d, hd, -⟩ := hclash
    cases part <;> exact absurd hd List.not_mem_nil
  · rwa [List.mem_singleton.1 he] at hclash

end Package

end ApiContracts.Compile

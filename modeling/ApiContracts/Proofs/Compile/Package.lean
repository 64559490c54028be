import ApiContracts.Compile.Package
import ApiContracts.Proofs.App.EndpointKey
import ApiContracts.Proofs.Compile.Contract
import ApiContracts.Proofs.Table

/-!
# Which descriptions compile

A description compiles exactly when the contract of each endpoint can be built and no two contracts have
one name. The package then holds these contracts in the order of the endpoints, each with the verb and
the path of its own.
-/

namespace ApiContracts

def Endpoint.answeringText (verb : Verb) (path : String) : Endpoint where
  verb := verb
  path := path
  returns := { type := .native "string" }

namespace Compile

namespace Contract

variable {lookups : Lookups} {config : Config} {e : Endpoint} {c : Contract}

theorem verb_path_of_build? (h : build? lookups config e = .ok c) :
    c.verb = e.verb ∧ c.path = e.path := by
  rw [build?] at h
  obtain ⟨⟨sections, imports⟩, -, h⟩ := bind_eq_ok.1 h
  obtain ⟨result, -, h⟩ := bind_eq_ok.1 h
  cases h
  exact ⟨rfl, rfl⟩

theorem config_of_build? (h : build? lookups config e = .ok c) : c.config = config := by
  rw [build?] at h
  obtain ⟨⟨sections, imports⟩, -, h⟩ := bind_eq_ok.1 h
  obtain ⟨result, -, h⟩ := bind_eq_ok.1 h
  cases h
  rfl

theorem endpoint_of_build? (h : build? lookups config e = .ok c) : c.endpoint = e.key := by
  obtain ⟨hverb, hpath⟩ := verb_path_of_build? h
  rw [endpoint, Endpoint.key, hverb, hpath]

theorem identifier_of_build? (h : build? lookups config e = .ok c) :
    c.identifier = Compile.identifier e.verb e.path := by
  obtain ⟨hverb, hpath⟩ := verb_path_of_build? h
  rw [identifier, hverb, hpath]

theorem modulePath_of_build? (h : build? lookups config e = .ok c) :
    c.modulePath = config.contractPath (Compile.identifier e.verb e.path) := by
  rw [modulePath, config_of_build? h, identifier_of_build? h]

theorem identifier_eq_of_endpoint {d : Contract} (h : c.endpoint = d.endpoint) :
    c.identifier = d.identifier := by
  obtain ⟨hverb, hpath⟩ := EndpointKey.key_inj.1 h
  rw [Contract.identifier, hverb, hpath, Contract.identifier]

end Contract

namespace Package

variable {lookups : Lookups} {config : Config}

/-- The contracts of a description, one for each endpoint, with names of their own. -/
structure Contracts (lookups : Lookups) (config : Config) (endpoints : List Endpoint)
    (contracts : List Contract) : Prop where
  built : List.Forall₂ (fun e c => Contract.build? lookups config e = .ok c) endpoints contracts
  names : (contracts.map (·.identifier)).Nodup

theorem contracts_cons_eq_ok {done : List Contract} {e : Endpoint} {rest : List Endpoint}
    {out : List Contract} :
    contracts lookups config done (e :: rest) = .ok out
      ↔ ∃ c, Contract.build? lookups config e = .ok c ∧ c.identifier ∉ done.map (·.identifier)
        ∧ contracts lookups config (done ++ [c]) rest = .ok out := by
  rw [contracts, bind_eq_ok]
  refine exists_congr fun c => and_congr_right fun _ => ?_
  cases hfind : done.find? fun d => d.identifier == c.identifier with
  | none =>
      have hfree : c.identifier ∉ done.map (·.identifier) := by
        intro hmem
        obtain ⟨d, hd, heq⟩ := List.mem_map.1 hmem
        simpa [heq] using List.find?_eq_none.1 hfind d hd
      exact (and_iff_right hfree).symm
  | some first =>
      have htaken : c.identifier ∈ done.map (·.identifier) := by
        rw [List.mem_map]
        exact ⟨first, List.mem_of_find?_eq_some hfind, by simpa using List.find?_some hfind⟩
      simp [htaken, throw, throwThe, MonadExceptOf.throw]

theorem contracts_eq_ok {done : List Contract} {endpoints : List Endpoint} {out : List Contract}
    (hdone : (done.map (·.identifier)).Nodup) :
    contracts lookups config done endpoints = .ok out
      ↔ ∃ new, out = done ++ new ∧ (out.map (·.identifier)).Nodup
        ∧ List.Forall₂ (fun e c => Contract.build? lookups config e = .ok c) endpoints new := by
  induction endpoints generalizing done with
  | nil =>
      rw [contracts, Except.ok.injEq]
      constructor
      · rintro rfl
        exact ⟨[], by simp, hdone, .nil⟩
      · rintro ⟨new, rfl, -, hnew⟩
        rw [List.forall₂_nil_left_iff.1 hnew, List.append_nil]
  | cons e rest ih =>
      rw [contracts_cons_eq_ok]
      constructor
      · rintro ⟨c, hbuild, hfree, h⟩
        have hdone' : ((done ++ [c]).map (·.identifier)).Nodup := by
          rw [List.map_append, List.map_singleton, ← List.concat_eq_append, List.nodup_concat]
          exact ⟨hfree, hdone⟩
        obtain ⟨new, rfl, hnodup, hnew⟩ := (ih hdone').1 h
        exact ⟨c :: new, by simp, hnodup, .cons hbuild hnew⟩
      · rintro ⟨new, rfl, hnodup, hnew⟩
        obtain ⟨c, new, hbuild, hrest, rfl⟩ := List.forall₂_cons_left_iff.1 hnew
        have hsplit : done ++ c :: new = (done ++ [c]) ++ new := by simp
        have hdone' : ((done ++ [c]).map (·.identifier)).Nodup := by
          rw [hsplit, List.map_append] at hnodup
          exact hnodup.of_append_left
        have hfree : c.identifier ∉ done.map (·.identifier) := by
          rw [List.map_append, List.map_singleton, ← List.concat_eq_append, List.nodup_concat] at hdone'
          exact hdone'.1
        exact ⟨c, hbuild, hfree, (ih hdone').2 ⟨new, hsplit, hnodup, hrest⟩⟩

/-- A description compiles exactly when its endpoints have contracts with names of their own. -/
theorem compile_eq_ok {endpoints : List Endpoint} {p : Package} :
    compile lookups config endpoints = .ok p
      ↔ ∃ contracts, Contracts lookups config endpoints contracts ∧ p = ofContracts config contracts := by
  rw [compile, map_eq_ok]
  refine exists_congr fun cs => ?_
  have hcontracts : contracts lookups config [] endpoints = .ok cs
      ↔ Contracts lookups config endpoints cs := by
    rw [contracts_eq_ok (by simp)]
    constructor
    · rintro ⟨new, rfl, hnodup, hnew⟩
      exact ⟨hnew, hnodup⟩
    · rintro ⟨hbuilt, hnames⟩
      exact ⟨cs, rfl, hnames, hbuilt⟩
  rw [hcontracts, eq_comm (a := p)]

/-- What a built contract takes from its endpoint alone can be told from the endpoints. -/
theorem map_of_built {β : Type} {f : Contract → β} {g : Endpoint → β} {endpoints : List Endpoint}
    {contracts : List Contract}
    (h : List.Forall₂ (fun e c => Contract.build? lookups config e = .ok c) endpoints contracts)
    (hfg : ∀ e c, Contract.build? lookups config e = .ok c → f c = g e) :
    contracts.map f = endpoints.map g := by
  induction h with
  | nil => rfl
  | cons hbuild _ ih => rw [List.map_cons, List.map_cons, hfg _ _ hbuild, ih]

namespace Contracts

variable {endpoints : List Endpoint} {contracts : List Contract}

theorem endpoints_eq (h : Contracts lookups config endpoints contracts) :
    contracts.map (·.endpoint) = endpoints.map Endpoint.key := by
  exact map_of_built h.built fun _ _ hbuild => Contract.endpoint_of_build? hbuild

theorem identifiers_eq (h : Contracts lookups config endpoints contracts) :
    contracts.map (·.identifier) = endpoints.map fun e => identifier e.verb e.path := by
  exact map_of_built h.built fun _ _ hbuild => Contract.identifier_of_build? hbuild

theorem nodup_endpoints (h : Contracts lookups config endpoints contracts) :
    (contracts.map (·.endpoint)).Nodup := by
  have hnames := h.names
  rw [List.Nodup, List.pairwise_map] at hnames ⊢
  apply hnames.imp
  intro c d hne heq
  exact hne (Contract.identifier_eq_of_endpoint heq)

theorem length_eq (h : Contracts lookups config endpoints contracts) : contracts.length = endpoints.length := by
  exact h.built.length_eq.symm

theorem exists_built (h : Contracts lookups config endpoints contracts) {c : Contract} (hc : c ∈ contracts) :
    ∃ e ∈ endpoints, Contract.build? lookups config e = .ok c := by
  exact exists_left_of_mem h.built hc

theorem config_eq (h : Contracts lookups config endpoints contracts) : ∀ c ∈ contracts, c.config = config := by
  intro c hc
  obtain ⟨e, -, hbuild⟩ := h.exists_built hc
  exact Contract.config_of_build? hbuild

end Contracts

theorem take_files {contracts : List Contract} {n : Nat} (h : contracts.length = n) :
    (ofContracts config contracts).files.take n = contracts.map (·.artifact) := by
  rw [ofContracts, List.append_assoc]
  exact List.take_left' (by rw [List.length_map, h])

theorem drop_files {contracts : List Contract} {n : Nat} (h : contracts.length = n) :
    (ofContracts config contracts).files.drop n
      = [utilityArtifact config, ServerModule.artifact ⟨config, contracts⟩] ++ indexArtifacts config contracts := by
  rw [ofContracts, List.append_assoc]
  exact List.drop_left' (by rw [List.length_map, h])

/-! ### The manifest -/

theorem get?_recordAll {contracts : List Contract} (h : ∀ c ∈ contracts, c.config = config) {m : Manifest}
    {name : String} :
    (contracts.foldl (fun m c => Manifest.record m c.identifier c.modulePath) m).get? name
      = if name ∈ contracts.map (·.identifier) then some (config.contractPath name) else m.get? name := by
  induction contracts generalizing m with
  | nil => rfl
  | cons c rest ih =>
      rw [List.forall_mem_cons] at h
      rw [List.foldl_cons, ih h.2, Manifest.record, Table.get?_insert, Contract.modulePath, h.1]
      simp only [List.map_cons, List.mem_cons]
      by_cases hname : name = c.identifier
      · simp [hname]
      · simp [hname]

theorem get?_manifestOf {contracts : List Contract} (h : ∀ c ∈ contracts, c.config = config) {name : String} :
    (manifestOf config contracts).get? name
      = if name = "server" then some config.serverPath
        else if name = "utility" then some config.utilityPath
        else if name ∈ contracts.map (·.identifier) then some (config.contractPath name) else none := by
  rw [manifestOf, Manifest.record, Manifest.record, Table.get?_insert, Table.get?_insert, get?_recordAll h]
  rfl

theorem manifestOf_congr {config' : Config} {contracts contracts' : List Contract}
    (h : ∀ c ∈ contracts, c.config = config) (h' : ∀ c ∈ contracts', c.config = config')
    (hroot : config'.root = config.root)
    (hnames : ∀ name, name ∈ contracts'.map (·.identifier) ↔ name ∈ contracts.map (·.identifier)) :
    manifestOf config' contracts' = manifestOf config contracts := by
  apply Table.ext_get?
  intro name
  rw [get?_manifestOf h, get?_manifestOf h']
  simp only [hnames, Config.serverPath, Config.utilityPath, Config.contractPath, hroot]

end Package

end Compile

end ApiContracts

import ApiContracts.Proofs.CommandLine.Steps
import ApiContracts.Proofs.Compile.Packaging

/-!
# Where a package is written

The files of a package are joined to the output directory, each by the root, a slash and where it is seen from
there; the manifest is joined behind the root. So the files stay in the output directory if the root leads to
somewhere in it. A root that is absolute leads elsewhere, one that climbs leads out, and an empty root leaves
the slash, so that the files start at the root of the system, though the manifest stays where it is meant to be.
-/

namespace ApiContracts.CommandLine

open Compile ApiContracts.Path

/-! ### Paths of outputs -/

/-- The place that the files of a package, though not its manifest, are written under. -/
def rootPlace (working : List String) (directory root : String) : List String :=
  walk (if root = "" ∨ isAbsolute root = true then [] else place working directory) (names root)

theorem place_rooted (working : List String) (directory root path : String) :
    place working (join directory (root ++ "/" ++ path)) = walk (rootPlace working directory root) (names path) := by
  have habsolute : isAbsolute (root ++ "/" ++ path) = true ↔ root = "" ∨ isAbsolute root = true := by
    by_cases hempty : root = ""
    · subst hempty
      have hslash : isAbsolute ("/" ++ path) = isAbsolute "/" := isAbsolute_append (by decide)
      rw [String.empty_append, hslash]
      decide
    · rw [String.append_assoc, isAbsolute_append hempty, or_iff_right hempty]
  rw [place_join, names_slash, walk_append, rootPlace]
  simp only [habsolute]

theorem place_manifest (working : List String) (directory root : String) :
    place working (join (join directory root) "manifest.json")
      = walk (if isAbsolute root then [] else place working directory) (names root) ++ ["manifest.json"] := by
  have hrelative : isAbsolute "manifest.json" = false := by decide
  have hnames : names "manifest.json" = ["manifest.json"] := by decide
  rw [place_join, hrelative, if_neg (by decide), place_join, hnames]
  rfl

theorem contractFile_ne {text : String} (h : ∀ v ∈ Verb.all, Departs text v.wireName) (c : Contract) :
    c.identifier ++ ".rs" ≠ text := by
  have hdeparts : Departs text (c.identifier ++ ".rs") := ((h c.verb c.verb.mem_all).append _).append _
  exact hdeparts.ne.symm

theorem names_contractFile (c : Contract) :
    names ("api/" ++ c.identifier ++ ".rs") = ["api", c.identifier ++ ".rs"] := by
  have hslash : '/' ∉ (c.identifier ++ ".rs").toList := by
    have hword : '/' ∉ c.identifier.toList := (isWord_identifier c.verb c.path).not_mem (by decide)
    have hend : '/' ∉ ".rs".toList := by decide
    rw [String.toList_append, List.mem_append, not_or]
    exact ⟨hword, hend⟩
  have hne : c.identifier ++ ".rs" ≠ "" := contractFile_ne (by decide) c
  have hfile : names (c.identifier ++ ".rs") = [c.identifier ++ ".rs"] := by
    rw [names, Text.splitText, Text.pieces_of_not_mem hslash, List.map_singleton, String.ofList_toList]
    simp [hne]
  have hpath : "api/" ++ c.identifier ++ ".rs" = "api" ++ "/" ++ (c.identifier ++ ".rs") := by
    rw [← String.append_assoc]
    rfl
  have hapi : names "api" = ["api"] := by decide
  rw [hpath, names_slash, hapi, hfile]
  rfl

theorem not_climbs_places {contracts : List Contract} {path : String}
    (hpath : path ∈ Package.places (contracts.map (·.identifier))) : ¬ ClimbsFrom 0 (names path) := by
  have hfixed : ∀ path ∈ ["utility.rs", "server.rs", "mod.rs", "api/mod.rs"], ¬ ClimbsFrom 0 (names path) := by
    decide +kernel
  rcases List.mem_append.1 hpath with hpath | hpath
  · rw [List.map_map] at hpath
    obtain ⟨c, -, rfl⟩ := List.mem_map.1 hpath
    have hdot : c.identifier ++ ".rs" ≠ "." := contractFile_ne (by decide) c
    have hup : c.identifier ++ ".rs" ≠ ".." := contractFile_ne (by decide) c
    simp only [Function.comp, names_contractFile]
    rw [climbsFrom_down (by decide) (by decide), climbsFrom_down hdot hup]
    exact not_climbsFrom_nil
  · exact hfixed path hpath

/-! ### When outputs stay -/

/-- A root that leads from every directory to somewhere in it. -/
structure Stays (root : String) : Prop where
  named : root ≠ ""
  relative : isAbsolute root = false
  descends : ¬ ClimbsFrom 0 (names root)

theorem stays_iff {root : String} :
    (∀ working directory, place working directory <+: rootPlace working directory root) ↔ Stays root := by
  constructor
  · intro h
    have hstart : ∀ start : List String, start <+: rootPlace start "." root := fun start => h start "."
    by_cases hroot : root = "" ∨ isAbsolute root = true
    · have hplace : ∀ start, rootPlace start "." root = walk [] (names root) := by
        intro start
        rw [rootPlace, if_pos hroot]
      have ha : ["a"] <+: walk [] (names root) := hplace ["a"] ▸ hstart ["a"]
      have hb : ["b"] <+: walk [] (names root) := hplace ["b"] ▸ hstart ["b"]
      exact absurd (head_unique ha hb) (by decide)
    · have hwalk : ∀ start, start <+: walk start (names root) := by
        intro start
        have hplace : rootPlace start "." root = walk start (names root) := by
          rw [rootPlace, if_neg hroot]
          rfl
        exact hplace ▸ hstart start
      rw [not_or, Bool.not_eq_true] at hroot
      exact ⟨hroot.1, hroot.2, prefix_walk_iff.1 hwalk⟩
  · intro h working directory
    have hroot : ¬ (root = "" ∨ isAbsolute root = true) := by simp [h.named, h.relative]
    rw [rootPlace, if_neg hroot]
    exact prefix_walk_iff.2 h.descends _

theorem forall_outputs {directory : String} {config : Config} {p : Package} {Q : String → Prop} :
    (∀ o ∈ outputs directory config p, Q o.path)
      ↔ (∀ path ∈ p.files.map (·.path), Q (join directory path))
        ∧ Q (join (join directory config.root) "manifest.json") := by
  rw [outputs, List.forall_mem_append, List.forall_mem_map, List.forall_mem_map, List.forall_mem_singleton]

section Inside

variable {lookups : Lookups} {config : Config} {endpoints : List Endpoint} {p : Package}

theorem inside_iff_rootPlace (h : Package.compile lookups config endpoints = .ok p) {working : List String}
    {directory : String} :
    (∀ o ∈ outputs directory config p, Inside working directory o.path)
      ↔ place working directory <+: rootPlace working directory config.root := by
  obtain ⟨contracts, hcontracts, rfl⟩ := Package.compile_eq_ok.1 h
  rw [forall_outputs (Q := fun path => Inside working directory path),
    Package.paths_ofContracts hcontracts.config_eq, List.forall_mem_map]
  constructor
  · intro hinside
    have hnames : ∀ name ∈ ["utility.rs", "server.rs"], names name = [name] ∧ name ≠ "." ∧ name ≠ ".." := by
      decide
    have hfile : ∀ name ∈ ["utility.rs", "server.rs"],
        place working directory <+: rootPlace working directory config.root ++ [name] := by
      intro name hname
      have hplace : name ∈ Package.places (contracts.map (·.identifier)) :=
        List.mem_append_right _ (List.mem_append_left ["mod.rs", "api/mod.rs"] hname)
      obtain ⟨hself, hdot, hup⟩ := hnames name hname
      rw [← walk_name hdot hup, ← hself, ← place_rooted]
      exact hinside.1 name hplace
    have hutility := hfile "utility.rs" (by decide)
    have hserver := hfile "server.rs" (by decide)
    rw [List.prefix_concat_iff] at hutility
    refine hutility.resolve_left ?_
    intro heq
    rw [heq, List.prefix_append_right_inj] at hserver
    exact absurd (head_unique hserver List.prefix_rfl) (by decide)
  · intro hprefix
    refine ⟨?_, ?_⟩
    · intro path hpath
      have hbelow : rootPlace working directory config.root
          <+: walk (rootPlace working directory config.root ++ []) (names path) :=
        prefix_walk (not_climbs_places hpath)
      rw [List.append_nil] at hbelow
      rw [Inside, place_rooted]
      exact hprefix.trans hbelow
    · rw [Inside, place_manifest]
      refine List.IsPrefix.trans ?_ (List.prefix_append _ _)
      by_cases hempty : config.root = ""
      · rw [hempty]
        exact List.prefix_rfl
      · rw [rootPlace] at hprefix
        simpa only [hempty, false_or] using hprefix

end Inside

/-! ### What a run leaves -/

theorem keeps_takeSteps {directory : List String} {steps : List Step} {d : Disk}
    (h : ∀ path content, .write path content ∈ steps → directory <+: Path.place d.working path) :
    Disk.Keeps directory d (takeSteps d steps).disk := by
  refine (changesOnly_takeSteps d steps).keeps ?_
  intro place hplace
  obtain ⟨path, content, hmem, rfl⟩ := mem_writtenPlaces.1 hplace
  exact h path content hmem

theorem mem_writing {o : Output} {path content : String} (h : .write path content ∈ o.writing) :
    path = o.path := by
  rw [Output.writing, List.mem_append] at h
  rcases h with h | h
  · rw [Option.mem_toList, Option.map_eq_some_iff] at h
    obtain ⟨parent, -, heq⟩ := h
    cases heq
  · simp only [List.mem_cons, Step.write.injEq, reduceCtorEq, List.not_mem_nil, or_false] at h
    exact h.1

/-- The paths of a package that compiles lie in the output directory exactly when the root leads to somewhere in
it. From every working directory and for every output directory they do exactly when the root is not empty, not
absolute and does not climb; then a run that writes them leaves every file outside as it was. -/
theorem outputs_inside_iff {lookups : Lookups} {config : Config} {endpoints : List Endpoint} {p : Package}
    (h : Package.compile lookups config endpoints = .ok p) :
    (∀ working directory, (∀ o ∈ outputs directory config p, Inside working directory o.path)
        ↔ place working directory <+: rootPlace working directory config.root)
      ∧ ((∀ working directory, ∀ o ∈ outputs directory config p, Inside working directory o.path)
        ↔ Stays config.root)
      ∧ (Stays config.root → ∀ (d : Disk) (directory : String), Disk.Keeps (place d.working directory) d
          (takeSteps d ((outputs directory config p).flatMap Output.writing)).disk) := by
  have hall : (∀ working directory, ∀ o ∈ outputs directory config p, Inside working directory o.path)
      ↔ Stays config.root := by
    rw [← stays_iff]
    exact forall_congr' fun working => forall_congr' fun directory => inside_iff_rootPlace h
  refine ⟨fun working directory => inside_iff_rootPlace h, hall, ?_⟩
  intro hstays d directory
  apply keeps_takeSteps
  intro path content hmem
  obtain ⟨o, ho, hwrite⟩ := List.mem_flatMap.1 hmem
  rw [mem_writing hwrite]
  exact hall.2 hstays d.working directory o ho

/-- A root that goes up and down again, and one that comes back to the output directory by its name. -/
theorem outputs_inside_winding :
    (∃ p, Package.compile {} { root := "a/.././b" } [.answeringText .get "/a"] = .ok p
        ∧ ∀ working directory, ∀ o ∈ outputs directory { root := "a/.././b" } p, Inside working directory o.path)
      ∧ ∃ p, Package.compile {} { root := "../out" } [.answeringText .get "/a"] = .ok p
        ∧ (∀ o ∈ outputs "out" { root := "../out" } p, Inside ["home"] "out" o.path)
        ∧ ¬ ∀ o ∈ outputs "gen" { root := "../out" } p, Inside ["home"] "gen" o.path := by
  have hok : (Package.compile {} { root := "a/.././b" } [.answeringText .get "/a"]).isOk = true := by decide +kernel
  have hback : (Package.compile {} { root := "../out" } [.answeringText .get "/a"]).isOk = true := by
    decide +kernel
  obtain ⟨p, hp⟩ := isOk_iff.1 hok
  obtain ⟨q, hq⟩ := isOk_iff.1 hback
  have hstays : Stays "a/.././b" := ⟨by decide, by decide, by decide +kernel⟩
  obtain ⟨hinside, -, -⟩ := outputs_inside_iff hq
  refine ⟨⟨p, hp, (outputs_inside_iff hp).2.1.2 hstays⟩, q, hq, ?_, ?_⟩
  · rw [hinside]
    decide +kernel
  · rw [hinside]
    decide +kernel

/-- With an empty root the manifest is in the output directory, and the other files are not. -/
theorem empty_root_leaves :
    ∃ p, Package.compile {} { root := "" } [.answeringText .get "/a"] = .ok p
      ∧ (∃ o ∈ outputs "out" { root := "" } p, o.path = "out/manifest.json" ∧ Inside [] "out" o.path)
      ∧ ∃ o ∈ outputs "out" { root := "" } p, o.path = "/utility.rs" ∧ ¬ Inside [] "out" o.path := by
  have hok : (Package.compile {} { root := "" } [.answeringText .get "/a"]).isOk = true := by decide +kernel
  obtain ⟨p, hp⟩ := isOk_iff.1 hok
  obtain ⟨contracts, -, rfl⟩ := Package.compile_eq_ok.1 hp
  have hutility : utilityArtifact { root := "" } ∈ (Package.ofContracts { root := "" } contracts).files := by
    simp [Package.ofContracts]
  have hmanifest : join (join "out" "") "manifest.json" = "out/manifest.json" := by decide +kernel
  have hinside : Inside [] "out" "out/manifest.json" := by decide +kernel
  refine ⟨_, hp, ⟨_, List.mem_append_right _ List.mem_cons_self, hmanifest, ?_⟩,
    ⟨_, List.mem_append_left _ (List.mem_map_of_mem hutility), ?_, ?_⟩⟩
  · exact hmanifest ▸ hinside
  · decide +kernel
  · decide +kernel

end ApiContracts.CommandLine

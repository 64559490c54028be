import ApiContracts.Proofs.Compile.Name
import ApiContracts.Proofs.Compile.Package
import ApiContracts.Proofs.Text.Pieces
import Mathlib.Data.List.Nodup
import Mathlib.Data.List.Pairwise
import Mathlib.Data.List.TakeWhile

/-!
# Names in the emitted server

`boundNames` reads off a line of source the names that it brings into scope. The server brings in five
names of the library and two for each contract, the name of the contract and the same name with
`_Contract` behind it. Names of contracts differ and start with a verb in capitals, as none of the five
does; what is left to clash is the name of one contract with the longer name of another.
-/

namespace ApiContracts.Compile

open Text

/-! ### What a line brings into scope -/

def afterColons (cs : List Char) : List Char := (cs.reverse.takeWhile (· != ':')).reverse

/-- The names that a line brings into scope: those behind its last colon, if it is a `use` declaration. -/
def boundNames (line : String) : List String :=
  match afterStart "use ".toList line.toList with
  | none => []
  | some rest => (pieces ',' (afterColons rest)).map fun piece => String.ofList (piece.filter isWordChar)

theorem afterColons_behind {cs tail : List Char} : afterColons (cs ++ ':' :: tail) = afterColons tail := by
  rw [afterColons, afterColons, List.reverse_append, List.reverse_cons, List.append_assoc,
    List.singleton_append, List.takeWhile_append]
  split
  · next hall => rw [(List.takeWhile_prefix _).eq_of_length hall, List.takeWhile_cons, if_neg (by simp), List.append_nil]
  · rfl

theorem afterColons_append {cs tail : List Char} (h : ':' ∉ tail) :
    afterColons (cs ++ ':' :: tail) = tail := by
  have hall : ∀ c ∈ tail.reverse, (c != ':') = true := by
    intro c hc
    rw [bne_iff_ne]
    rintro rfl
    exact h (List.mem_reverse.1 hc)
  rw [afterColons_behind, afterColons, List.takeWhile_eq_self_iff.2 hall, List.reverse_reverse]

theorem boundNames_use {path tail : String} (h : ':' ∉ tail.toList) :
    boundNames ("use " ++ path ++ "::" ++ tail)
      = (pieces ',' tail.toList).map fun piece => String.ofList (piece.filter isWordChar) := by
  have hline : afterStart "use ".toList ("use " ++ path ++ "::" ++ tail).toList
      = some ((path.toList ++ [':']) ++ ':' :: tail.toList) := by
    simp [String.toList_append, afterStart]
  rw [boundNames, hline]
  simp only [afterColons_append h]

theorem boundNames_one {path name : String} (h : IsWord name) :
    boundNames ("use " ++ path ++ "::" ++ (name ++ ";")) = [name] := by
  have hcolon : ':' ∉ (name ++ ";").toList := by
    simp [String.toList_append, h.colon_not_mem]
  have hcomma : ',' ∉ (name ++ ";").toList := by
    simp [String.toList_append, h.comma_not_mem]
  have hend : ";".toList.filter isWordChar = [] := by decide
  rw [boundNames_use hcolon, pieces_of_not_mem hcomma, List.map_singleton, String.toList_append,
    List.filter_append, h.filter, hend, List.append_nil, String.ofList_toList]

theorem boundNames_two {path a b : String} (ha : IsWord a) (hb : IsWord b) :
    boundNames ("use " ++ path ++ "::" ++ ("\x7b" ++ a ++ ", " ++ b ++ "\x7d;")) = [a, b] := by
  have hcolon : ':' ∉ ("\x7b" ++ a ++ ", " ++ b ++ "\x7d;").toList := by
    simp [String.toList_append, ha.colon_not_mem, hb.colon_not_mem]
  have hsplit : ("\x7b" ++ a ++ ", " ++ b ++ "\x7d;").toList
      = ('\x7b' :: a.toList) ++ ',' :: (' ' :: b.toList ++ ['\x7d', ';']) := by
    simp [String.toList_append]
  have hfirst : ',' ∉ '\x7b' :: a.toList := by simp [ha.comma_not_mem]
  have hsecond : ',' ∉ ' ' :: b.toList ++ ['\x7d', ';'] := by simp [hb.comma_not_mem]
  have hopen : isWordChar '\x7b' = false := by decide
  have hblank : isWordChar ' ' = false := by decide
  have hclose : isWordChar '\x7d' = false := by decide
  have hend : isWordChar ';' = false := by decide
  rw [boundNames_use hcolon, hsplit, pieces_append hfirst, pieces_of_not_mem hsecond]
  simp [List.filter_append, ha.filter, hb.filter, hopen, hblank, hclose, hend]

/-! ### The lines of the server -/

namespace ServerModule

def libraryNames : List String := ["ConfigError", "App", "SystemParam", "Contract", "SectionSpec"]

def contractNames (name : String) : List String := [name, name ++ "_Contract"]

/-- The names that an emitted server brings into scope, line by line. -/
def names (s : ServerModule) : List String := s.lines.flatMap boundNames

theorem boundNames_importLine (s : ServerModule) (c : Contract) :
    boundNames (s.importLine c) = contractNames c.identifier := by
  have hword : IsWord c.identifier := isWord_identifier _ _
  have hsuffix : IsWord "_Contract" := by decide
  have hline : s.importLine c = "use " ++ relativePath s.config.serverPath c.modulePath ++ "::"
      ++ ("\x7b" ++ c.identifier ++ ", " ++ (c.identifier ++ "_Contract") ++ "\x7d;") := by
    simp only [importLine, String.append_assoc]
    rfl
  rw [hline]
  exact boundNames_two hword (hword.append hsuffix)

/-- Whether a line starts with another letter than `use` does. -/
def Plain (line : String) : Prop := line.toList.head?.any (· != 'u') = true

instance (line : String) : Decidable (Plain line) := inferInstanceAs (Decidable (_ = _))

theorem Plain.append {start rest : String} (h : Plain start) : Plain (start ++ rest) := by
  unfold Plain at h ⊢
  rw [String.toList_append]
  cases hstart : start.toList with
  | nil => simp [hstart] at h
  | cons c cs => simpa [hstart] using h

theorem Plain.afterStart_eq_none {line : String} (h : Plain line) :
    afterStart "use ".toList line.toList = none := by
  unfold Plain at h
  cases hline : line.toList with
  | nil => simp [hline] at h
  | cons c cs =>
      have hc : ¬ 'u' = c := by
        rintro rfl
        simp [hline] at h
      simp [afterStart, hc]

theorem Plain.boundNames_eq_nil {line : String} (h : Plain line) : boundNames line = [] := by
  rw [boundNames, h.afterStart_eq_none]

theorem flatMap_boundNames_map {contracts : List Contract} {f : Contract → String}
    (h : ∀ c, Plain (f c)) : (contracts.map f).flatMap boundNames = [] := by
  rw [List.flatMap_map, List.flatMap_eq_nil_iff]
  exact fun c _ => (h c).boundNames_eq_nil

theorem plain_variantLine (c : Contract) : Plain (variantLine c) := by
  have hstart : Plain "    " := by decide
  exact hstart.append.append.append.append

theorem plain_lookupLine (c : Contract) : Plain (lookupLine c) := by
  have hstart : Plain "        " := by decide
  exact hstart.append.append.append.append

theorem plain_implementLine (c : Contract) : Plain (implementLine c) := by
  have hstart : Plain "            Endpoints::" := by decide
  exact hstart.append.append

theorem boundNames_conversionLines (c : Contract) : (conversionLines c).flatMap boundNames = [] := by
  have himpl : Plain "impl From<" := by decide
  have hfrom : Plain "    fn from(endpoint: " := by decide
  have hbody : Plain "        Endpoints::" := by decide
  have hfirst : boundNames (s!"impl From<{c.identifier}> for Endpoints \x7b") = [] :=
    himpl.append.append.boundNames_eq_nil
  have hsecond : boundNames (s!"    fn from(endpoint: {c.identifier}) -> Self \x7b") = [] :=
    hfrom.append.append.boundNames_eq_nil
  have hthird : boundNames (s!"        Endpoints::{c.identifier}(endpoint)") = [] :=
    hbody.append.append.boundNames_eq_nil
  have hend : ["    \x7d", "\x7d"].flatMap boundNames = [] := by decide +kernel
  rw [conversionLines, List.flatMap_cons, List.flatMap_cons, List.flatMap_cons, List.flatMap_cons,
    hfirst, hsecond, hthird, hend]
  rfl

theorem flatMap_boundNames_append {before after names : List String}
    (hbefore : before.flatMap boundNames = names) (hafter : after.flatMap boundNames = []) :
    (before ++ after).flatMap boundNames = names := by
  rw [List.flatMap_append, hbefore, hafter, List.append_nil]

theorem boundNames_one_of {runtime rest name : String} (place : String)
    (hrest : rest = place ++ ("::" ++ (name ++ ";"))) (h : IsWord name) :
    boundNames ("use " ++ runtime ++ rest) = [name] := by
  have hone : boundNames ("use " ++ (runtime ++ place) ++ "::" ++ (name ++ ";")) = [name] :=
    boundNames_one h
  rw [hrest]
  simpa only [String.append_assoc] using hone

theorem boundNames_two_of {runtime rest a b : String} (place : String)
    (hrest : rest = place ++ ("::" ++ ("\x7b" ++ a ++ ", " ++ b ++ "\x7d;"))) (ha : IsWord a)
    (hb : IsWord b) : boundNames ("use " ++ runtime ++ rest) = [a, b] := by
  have htwo : boundNames ("use " ++ (runtime ++ place) ++ "::" ++ ("\x7b" ++ a ++ ", " ++ b ++ "\x7d;"))
      = [a, b] := boundNames_two ha hb
  rw [hrest]
  simpa only [String.append_assoc] using htwo

theorem isWord_libraryNames : ∀ name ∈ libraryNames, IsWord name := by
  decide

theorem flatMap_boundNames_head (runtime : String) :
    [banner, "#![allow(non_camel_case_types, unused_imports)]", "",
      s!"use {runtime}::error::ConfigError;", s!"use {runtime}::server::\x7bApp, SystemParam\x7d;",
      s!"use {runtime}::typed::Contract;", s!"use {runtime}::validator::SectionSpec;"].flatMap boundNames
      = libraryNames := by
  have hword := isWord_libraryNames
  simp only [libraryNames, List.forall_mem_cons] at hword
  obtain ⟨hconfigError, happ, hsystemParam, hcontract, hsectionSpec, -⟩ := hword
  have herror : boundNames s!"use {runtime}::error::ConfigError;" = ["ConfigError"] :=
    boundNames_one_of "::error" (by decide +kernel) hconfigError
  have hserver : boundNames s!"use {runtime}::server::\x7bApp, SystemParam\x7d;" = ["App", "SystemParam"] :=
    boundNames_two_of "::server" (by decide +kernel) happ hsystemParam
  have htyped : boundNames s!"use {runtime}::typed::Contract;" = ["Contract"] :=
    boundNames_one_of "::typed" (by decide +kernel) hcontract
  have hvalidator : boundNames s!"use {runtime}::validator::SectionSpec;" = ["SectionSpec"] :=
    boundNames_one_of "::validator" (by decide +kernel) hsectionSpec
  have hbanner : boundNames banner = [] := by decide +kernel
  have hallow : boundNames "#![allow(non_camel_case_types, unused_imports)]" = [] := by decide +kernel
  have hempty : boundNames "" = [] := by decide +kernel
  rw [List.flatMap_cons, List.flatMap_cons, List.flatMap_cons, List.flatMap_cons, List.flatMap_cons,
    List.flatMap_cons, List.flatMap_cons, hbanner, hallow, hempty, herror, hserver, htyped, hvalidator]
  rfl

theorem names_eq (s : ServerModule) :
    s.names = libraryNames ++ (s.contracts.map (·.identifier)).flatMap contractNames := by
  have hconversions : (s.contracts.flatMap conversionLines).flatMap boundNames = [] := by
    rw [List.flatMap_assoc, List.flatMap_eq_nil_iff]
    exact fun c _ => boundNames_conversionLines c
  have himports : (s.contracts.map s.importLine).flatMap boundNames
      = (s.contracts.map (·.identifier)).flatMap contractNames := by
    rw [List.flatMap_map, List.flatMap_map]
    simp only [boundNames_importLine]
  rw [names, lines]
  refine flatMap_boundNames_append ?_ (by decide +kernel)
  refine flatMap_boundNames_append ?_ (flatMap_boundNames_map plain_implementLine)
  refine flatMap_boundNames_append ?_ (by decide +kernel)
  refine flatMap_boundNames_append ?_ (flatMap_boundNames_map plain_lookupLine)
  refine flatMap_boundNames_append ?_ (by decide +kernel)
  refine flatMap_boundNames_append ?_ hconversions
  refine flatMap_boundNames_append ?_ (by decide +kernel)
  refine flatMap_boundNames_append ?_ (flatMap_boundNames_map plain_variantLine)
  refine flatMap_boundNames_append ?_ (by decide +kernel)
  rw [List.flatMap_append, himports, flatMap_boundNames_head]

/-! ### When the names differ -/

theorem ne_append_suffix (x : String) : x ≠ x ++ "_Contract" := by
  intro h
  have hlength := congrArg String.length h
  rw [String.length_append] at hlength
  have hsuffix : "_Contract".length = 9 := by decide
  omega

theorem mem_contractNames {x name : String} :
    x ∈ contractNames name ↔ x = name ∨ x = name ++ "_Contract" := by
  simp [contractNames]

/-- The names of contracts that differ, with those behind them, all differ if none of the first is one of
the second. -/
theorem nodup_contractNames_iff {names : List String} (h : names.Nodup) :
    (names.flatMap contractNames).Nodup ↔ ∀ x ∈ names, ∀ y ∈ names, y ≠ x ++ "_Contract" := by
  rw [List.nodup_flatMap]
  constructor
  · rintro ⟨-, hpairwise⟩ x hx y hy rfl
    have hsymm : Std.Symm (Function.onFun List.Disjoint contractNames) :=
      ⟨fun _ _ hdisjoint _ hb ha => hdisjoint ha hb⟩
    have hdisjoint := hpairwise.forall hx hy (ne_append_suffix x)
    exact hdisjoint (mem_contractNames.2 (Or.inr rfl)) (mem_contractNames.2 (Or.inl rfl))
  · intro hne
    refine ⟨fun x _ => by simpa [contractNames] using ne_append_suffix x, ?_⟩
    refine List.Nodup.pairwise_of_forall_ne h ?_
    intro x hx y hy hxy z hzx hzy
    rw [mem_contractNames] at hzx hzy
    rcases hzx with rfl | rfl
    · rcases hzy with rfl | hzy
      · exact hxy rfl
      · exact hne y hy z hx hzy
    · rcases hzy with hzy | hzy
      · exact hne x hx y hy hzy.symm
      · exact hxy ((String.append_left_inj _).1 hzy)

theorem not_mem_libraryNames (v : Verb) (rest : String) : v.wireName ++ rest ∉ libraryNames := by
  intro h
  have hheads : ∀ name ∈ libraryNames, name.toList.head? ∉ [some 'G', some 'P', some 'D'] := by
    decide +kernel
  have hhead : (v.wireName ++ rest).toList.head? ∈ [some 'G', some 'P', some 'D'] := by
    rw [String.toList_append]
    cases v <;> simp [Verb.wireName]
  exact hheads _ h hhead

theorem nodup_names_iff {s : ServerModule} (h : (s.contracts.map (·.identifier)).Nodup) :
    s.names.Nodup ↔ ∀ x ∈ s.contracts.map (·.identifier), ∀ y ∈ s.contracts.map (·.identifier),
      y ≠ x ++ "_Contract" := by
  have hlibrary : libraryNames.Nodup := by decide +kernel
  have hdisjoint : libraryNames.Disjoint ((s.contracts.map (·.identifier)).flatMap contractNames) := by
    intro name hname hmem
    rw [List.flatMap_map, List.mem_flatMap] at hmem
    obtain ⟨c, -, hc⟩ := hmem
    rcases mem_contractNames.1 hc with rfl | rfl
    · exact not_mem_libraryNames _ _ hname
    · rw [Contract.identifier, identifier, String.append_assoc] at hname
      exact not_mem_libraryNames _ _ hname
  rw [names_eq, List.nodup_append', and_iff_right hlibrary, and_iff_left hdisjoint,
    nodup_contractNames_iff h]

end ServerModule

namespace Package

/-- The server of a description that compiles brings in the name of each endpoint's contract and the longer
name behind it; the names differ exactly when no contract is named as another one with `_Contract`. -/
theorem server_names_nodup_iff {lookups : Lookups} {config : Config} {endpoints : List Endpoint}
    {p : Package} (h : compile lookups config endpoints = .ok p) :
    ∃ s : ServerModule, s.artifact ∈ p.files ∧ s.config = config
      ∧ s.contracts.map (·.endpoint) = endpoints.map Endpoint.key
      ∧ s.names = ServerModule.libraryNames ++ endpoints.flatMap (fun e =>
          [identifier e.verb e.path, identifier e.verb e.path ++ "_Contract"])
      ∧ (s.names.Nodup ↔ ∀ e ∈ endpoints, ∀ e' ∈ endpoints,
          identifier e'.verb e'.path ≠ identifier e.verb e.path ++ "_Contract") := by
  obtain ⟨contracts, hcontracts, rfl⟩ := compile_eq_ok.1 h
  have hnames : (ServerModule.mk config contracts).names
      = ServerModule.libraryNames ++ endpoints.flatMap (fun e =>
          [identifier e.verb e.path, identifier e.verb e.path ++ "_Contract"]) := by
    rw [ServerModule.names_eq, hcontracts.identifiers_eq, List.flatMap_map]
    rfl
  refine ⟨⟨config, contracts⟩, by simp [ofContracts], rfl, hcontracts.endpoints_eq, hnames, ?_⟩
  rw [ServerModule.nodup_names_iff hcontracts.names, hcontracts.identifiers_eq]
  simp only [List.forall_mem_map]

/-- A slash behind the path, or another verb, is enough for names of their own. -/
theorem server_names_nodup_near_clash :
    ∃ p, compile {} {} [.answeringText .get "/a", .answeringText .post "/a_Contract",
        .answeringText .get "/a_Contract/"] = .ok p
      ∧ ∃ s : ServerModule, s.artifact ∈ p.files ∧ s.names.Nodup := by
  have hok : (compile {} {} [.answeringText .get "/a", .answeringText .post "/a_Contract",
      .answeringText .get "/a_Contract/"]).isOk = true := by decide +kernel
  obtain ⟨p, hp⟩ := isOk_iff.1 hok
  obtain ⟨s, hs, -, -, -, hnodup⟩ := server_names_nodup_iff hp
  exact ⟨p, hp, s, hs, hnodup.2 (by decide +kernel)⟩

/-- Two endpoints with contracts of different names, and a server that brings in one name twice. -/
theorem accepted_server_names_clash :
    ∃ p, compile {} {} [.answeringText .get "/a", .answeringText .get "/a_Contract"] = .ok p
      ∧ ∃ s : ServerModule, s.artifact ∈ p.files
        ∧ s.contracts.map (·.endpoint) = ["GET /a", "GET /a_Contract"]
        ∧ s.names.count "GET_a_Contract" = 2 := by
  have hok : (compile {} {} [.answeringText .get "/a", .answeringText .get "/a_Contract"]).isOk = true := by
    decide +kernel
  obtain ⟨p, hp⟩ := isOk_iff.1 hok
  obtain ⟨contracts, hcontracts, rfl⟩ := compile_eq_ok.1 hp
  refine ⟨_, hp, ⟨{}, contracts⟩, by simp [ofContracts], ?_, ?_⟩
  · rw [hcontracts.endpoints_eq]
    decide +kernel
  · rw [ServerModule.names_eq, hcontracts.identifiers_eq]
    decide +kernel

end Package

end ApiContracts.Compile

import ApiContracts.Proofs.Compile.Imports

/-!
# Types in use and types imported

Imports are gathered field by field, through every section, and the type of the result is added at the end; what an
endpoint declares and its verb does not honour is never looked at. In minimal mode the gathering starts over behind
the sections, so only the result is left. A contract then names exactly the types that were resolved to an import:
a field of its sections has the name of its type both in what it is declared as and in the check of its rule, and
native types bring no name into either. So nothing is named that is not imported, and nothing imported that is not
named.
-/

namespace ApiContracts

def Check.named? : Check String → Option String
  | enum name | nested name => some name
  | _ => none

namespace Compile

def BaseType.named? : BaseType → Option String
  | primitive _ => none
  | named name => some name

def SectionField.typeNames (f : SectionField) : List String :=
  f.type.base.named?.toList ++ f.rule.check.named?.toList

namespace Contract

def fields (c : Contract) : List SectionField := c.sections.flatMap (·.fields)

/-- The types that a contract names, field by field and in its result. -/
def typeNames (c : Contract) : List String :=
  c.fields.flatMap SectionField.typeNames ++ c.result.base.named?.toList

end Contract

/-- Whether a type is resolved to an import, for the module at `place`. -/
def Lookups.Asks (lookups : Lookups) (place endpoint : String) (type : TypeReference) (i : Import) : Prop :=
  ∃ resolved, lookups.resolve place endpoint type = .ok resolved ∧ resolved.source = some i

/-- The imports of a contract are those that types ask for, each line once and in order, and are just enough for the
types that it names. -/
structure Contract.ImportsWhatItNames (c : Contract) (lookups : Lookups) (types : List TypeReference) : Prop where
  /-- What is imported besides is of the library. -/
  lines : c.lines.filter isUse = c.libraryUses.map Use.line ++ c.imports.keys
  increasing : c.imports.keys.Pairwise (· < ·)
  resolved : ∀ type ∈ types, ∃ resolved, lookups.resolve c.modulePath c.endpoint type = .ok resolved
    ∧ (resolved.source = none ↔ ∃ name, type = .native name)
  imported : ∀ line, line ∈ c.imports.keys
    ↔ ∃ type ∈ types, ∃ i, lookups.Asks c.modulePath c.endpoint type i ∧ i.line = line
  covered : ∀ name ∈ c.typeNames, ∃ path, (Import.mk path name).line ∈ c.imports.keys
  needed : ∀ line ∈ c.imports.keys, ∃ path, ∃ name ∈ c.typeNames, (Import.mk path name).line = line

/-! ### What a type resolves to -/

section Resolve

variable {lookups : Lookups} {place endpoint : String} {type : TypeReference} {resolved : Resolved}

theorem Lookups.names_resolve (h : lookups.resolve place endpoint type = .ok resolved) :
    resolved.base.named? = resolved.source.map (·.name) ∧ resolved.check.named? = resolved.source.map (·.name) := by
  cases resolve_eq_ok.1 h with
  | @native _ p =>
      have hcheck : (p.check : Check String).named? = none := by cases p <;> rfl
      exact ⟨rfl, hcheck⟩
  | schema | table | enum => exact ⟨rfl, rfl⟩

theorem Lookups.source_resolve_eq_none (h : lookups.resolve place endpoint type = .ok resolved) :
    resolved.source = none ↔ ∃ name, type = .native name := by
  cases resolve_eq_ok.1 h <;> simp

theorem Lookups.asks_name_iff (h : lookups.resolve place endpoint type = .ok resolved) {name : String} :
    (∃ i, lookups.Asks place endpoint type i ∧ i.name = name) ↔ resolved.source.map (·.name) = some name := by
  rw [Option.map_eq_some_iff]
  refine exists_congr fun i => and_congr_left fun _ => ?_
  constructor
  · rintro ⟨resolved', h', hi⟩
    rw [h, Except.ok.injEq] at h'
    rwa [h']
  · exact fun hi => ⟨resolved, h, hi⟩

theorem Declares.mem_typeNames_iff {f : Field} {d : SectionField} (h : Declares lookups place endpoint f d)
    {name : String} : name ∈ d.typeNames ↔ ∃ i, lookups.Asks place endpoint f.type i ∧ i.name = name := by
  obtain ⟨resolved, hresolve, rfl⟩ := h
  obtain ⟨hbase, hcheck⟩ := Lookups.names_resolve hresolve
  have hnames : (declaredField f resolved).typeNames
      = (resolved.source.map (·.name)).toList ++ (resolved.source.map (·.name)).toList :=
    congrArg₂ (fun base check => base.toList ++ check.toList) hbase hcheck
  rw [hnames, List.mem_append, or_self, Option.mem_toList, Lookups.asks_name_iff hresolve]

end Resolve

/-! ### What a contract names -/

theorem mem_keys_addImports {sources : List Import} {line : String} :
    line ∈ (addImports .empty sources).keys ↔ ∃ i ∈ sources, i.line = line := by
  rw [Table.keys, List.mem_map]
  constructor
  · rintro ⟨entry, hentry, rfl⟩
    obtain ⟨hi, hline⟩ := mem_addImports hentry
    exact ⟨entry.2, hi, hline.symm⟩
  · rintro ⟨i, hi, rfl⟩
    obtain ⟨i', hi'⟩ := exists_mem_addImports hi
    exact ⟨_, hi', rfl⟩

namespace Contract

variable {lookups : Lookups} {config : Config} {e : Endpoint} {c : Contract}

def declaredFields (mode : Mode) (e : Endpoint) : List Field := (declaredParts mode e).flatMap e.fieldsOf

theorem declares_fields (h : build? lookups config e = .ok c) :
    List.Forall₂ (Declares lookups c.modulePath c.endpoint) (declaredFields config.mode e) c.fields := by
  rw [endpoint_of_build? h]
  exact List.rel_flatMap (declared_of_build? h) fun _ _ hpart => hpart.fields

theorem result_of_build? (h : build? lookups config e = .ok c) :
    ∃ resolved, lookups.resolve c.modulePath c.endpoint e.returns.type = .ok resolved
      ∧ c.result = ⟨resolved.base, e.returns.array, !e.returns.required⟩ := by
  rw [build?] at h
  obtain ⟨⟨sections, imports⟩, -, h⟩ := bind_eq_ok.1 h
  obtain ⟨result, hresult, h⟩ := bind_eq_ok.1 h
  cases h
  exact ⟨result, hresult, rfl⟩

theorem flatMap_filter_ne_nil {α β : Type} [DecidableEq β] (f : α → List β) (as : List α) :
    (as.filter fun a => f a ≠ []).flatMap f = as.flatMap f := by
  induction as with
  | nil => rfl
  | cons a as ih =>
      by_cases ha : f a = []
      · rw [List.filter_cons_of_neg (by simpa using ha), List.flatMap_cons, ha, ih, List.nil_append]
      · rw [List.filter_cons_of_pos (by simpa using ha), List.flatMap_cons, List.flatMap_cons, ih]

theorem mem_typesOf {mode : Mode} {type : TypeReference} :
    type ∈ typesOf mode e ↔ (∃ f ∈ declaredFields mode e, f.type = type) ∨ type = e.returns.type := by
  have hfields : (if mode = .full then Section.order.flatMap fun part => (e.fieldsOf part).map (·.type) else [])
      = (declaredFields mode e).map (·.type) := by
    rw [declaredFields, declaredParts]
    split
    · rw [flatMap_filter_ne_nil, List.map_flatMap]
    · rfl
  rw [typesOf, hfields, List.mem_append, List.mem_map, List.mem_singleton]

theorem resolve_of_mem_typesOf (h : build? lookups config e = .ok c) {type : TypeReference}
    (htype : type ∈ typesOf config.mode e) :
    ∃ resolved, lookups.resolve c.modulePath c.endpoint type = .ok resolved := by
  rcases mem_typesOf.1 htype with ⟨f, hf, rfl⟩ | rfl
  · obtain ⟨d, -, resolved, hresolve, -⟩ := exists_left_of_mem (declares_fields h).flip hf
    exact ⟨resolved, hresolve⟩
  · obtain ⟨resolved, hresolve, -⟩ := result_of_build? h
    exact ⟨resolved, hresolve⟩

/-- The types that a contract names are those that ask for an import. -/
theorem mem_typeNames_iff (h : build? lookups config e = .ok c) {name : String} :
    name ∈ c.typeNames
      ↔ ∃ type ∈ typesOf config.mode e, ∃ i, lookups.Asks c.modulePath c.endpoint type i ∧ i.name = name := by
  have hresult : name ∈ c.result.base.named?.toList ↔ ∃ i,
      lookups.Asks c.modulePath c.endpoint e.returns.type i ∧ i.name = name := by
    obtain ⟨resolved, hresolve, hresult⟩ := result_of_build? h
    rw [hresult, (Lookups.names_resolve hresolve).1, Option.mem_toList, Lookups.asks_name_iff hresolve]
  have hfields : (∃ d ∈ c.fields, name ∈ d.typeNames) ↔ ∃ f ∈ declaredFields config.mode e, ∃ i,
      lookups.Asks c.modulePath c.endpoint f.type i ∧ i.name = name := by
    have hdeclares := declares_fields h
    constructor
    · rintro ⟨d, hd, hname⟩
      obtain ⟨f, hf, hfield⟩ := exists_left_of_mem hdeclares hd
      exact ⟨f, hf, hfield.mem_typeNames_iff.1 hname⟩
    · rintro ⟨f, hf, hasks⟩
      obtain ⟨d, hd, hfield⟩ := exists_left_of_mem hdeclares.flip hf
      exact ⟨d, hd, (Declares.mem_typeNames_iff hfield).2 hasks⟩
  rw [typeNames, List.mem_append, List.mem_flatMap, hfields, hresult]
  constructor
  · rintro (⟨f, hf, hasks⟩ | hasks)
    · exact ⟨f.type, mem_typesOf.2 (Or.inl ⟨f, hf, rfl⟩), hasks⟩
    · exact ⟨e.returns.type, mem_typesOf.2 (Or.inr rfl), hasks⟩
  · rintro ⟨type, htype, hasks⟩
    rcases mem_typesOf.1 htype with ⟨f, hf, rfl⟩ | rfl
    · exact Or.inl ⟨f, hf, hasks⟩
    · exact Or.inr hasks

/-- The lines that a contract imports types with are those of the types that ask for an import. -/
theorem mem_imports_iff (h : build? lookups config e = .ok c) {line : String} :
    line ∈ c.imports.keys
      ↔ ∃ type ∈ typesOf config.mode e, ∃ i, lookups.Asks c.modulePath c.endpoint type i ∧ i.line = line := by
  rw [imports_of_build? h, mem_keys_addImports, sourcesOf, ← modulePath_of_build? h]
  simp only [List.mem_filterMap]
  constructor
  · rintro ⟨i, ⟨type, htype, hsource⟩, hline⟩
    obtain ⟨resolved, hresolve⟩ := resolve_of_mem_typesOf h htype
    exact ⟨type, htype, i, ⟨resolved, hresolve, (Lookups.source_resolve hresolve).trans hsource⟩, hline⟩
  · rintro ⟨type, htype, i, ⟨resolved, hresolve, hsource⟩, hline⟩
    exact ⟨i, ⟨type, htype, (Lookups.source_resolve hresolve).symm.trans hsource⟩, hline⟩

/-- A contract imports the types of the fields of its sections, if it has any, and the type of its result, each
where it was resolved to; and these are the types that it names in declarations, rules and its result. -/
theorem imports_are_types_in_use (h : build? lookups config e = .ok c) :
    c.ImportsWhatItNames lookups (typesOf config.mode e) where
  lines := by
    have hkeys := line_of_mem_imports h
    rw [filter_isUse_lines hkeys, uses, List.map_append, Table.keys, List.map_map]
    exact congrArg _ (List.map_congr_left hkeys).symm
  increasing := c.imports.sorted
  resolved := by
    intro type htype
    obtain ⟨resolved, hresolve⟩ := resolve_of_mem_typesOf h htype
    exact ⟨resolved, hresolve, Lookups.source_resolve_eq_none hresolve⟩
  imported := fun _ => mem_imports_iff h
  covered := by
    intro name hname
    obtain ⟨type, htype, i, hasks, rfl⟩ := (mem_typeNames_iff h).1 hname
    exact ⟨i.path, (mem_imports_iff h).2 ⟨type, htype, i, hasks, rfl⟩⟩
  needed := by
    intro line hline
    obtain ⟨type, htype, i, hasks, rfl⟩ := (mem_imports_iff h).1 hline
    exact ⟨i.path, i.name, (mem_typeNames_iff h).2 ⟨type, htype, i, hasks, rfl⟩, rfl⟩

/-- An enumeration twice, a table in the result, and a body that its verb does not take, of a type unknown. -/
def listUsers : Endpoint where
  verb := .get
  path := "/user"
  queries := some [{ key := "role", type := .enum "Role" }, { key := "not", type := .enum "Role", array := true },
    { key := "page", type := .native "int", required := false }]
  body := some [{ key := "secret", type := .schema "Secret" }]
  returns := { type := .table "User", array := true }

theorem imports_are_types_in_use_list_users :
    let lookups : Lookups := { models := .ofList [("User", "model/User"), ("Role", "model/Role")] }
    ∃ c d, build? lookups {} listUsers = .ok c ∧ build? lookups { mode := .minimal } listUsers = .ok d
      ∧ c.lines.filter isUse = c.libraryUses.map Use.line
        ++ ["use super::super::super::model::Role::Role;", "use super::super::super::model::User::User;"]
      ∧ d.lines.filter isUse = d.libraryUses.map Use.line ++ ["use super::super::super::model::User::User;"] := by
  intro lookups
  have hfull : (build? lookups {} listUsers).isOk = true := by decide +kernel
  have hminimal : (build? lookups { mode := .minimal } listUsers).isOk = true := by decide +kernel
  obtain ⟨c, hc⟩ := isOk_iff.1 hfull
  obtain ⟨d, hd⟩ := isOk_iff.1 hminimal
  have hboth : (addImports .empty (sourcesOf lookups {} listUsers)).keys
      = ["use super::super::super::model::Role::Role;", "use super::super::super::model::User::User;"] := by
    decide +kernel
  have hresult : (addImports .empty (sourcesOf lookups { mode := .minimal } listUsers)).keys
      = ["use super::super::super::model::User::User;"] := by decide +kernel
  refine ⟨c, d, hc, hd, ?_, ?_⟩
  · rw [(imports_are_types_in_use hc).lines, imports_of_build? hc, hboth]
  · rw [(imports_are_types_in_use hd).lines, imports_of_build? hd, hresult]

end Contract

end Compile

end ApiContracts

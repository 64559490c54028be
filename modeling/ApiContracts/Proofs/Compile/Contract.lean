import ApiContracts.Compile.Contract
import ApiContracts.Proofs.Except
import Mathlib.Data.List.Forall2
import Mathlib.Data.List.Nodup

/-!
# What a built contract declares

Types and checks are resolved together, and stay together: every field of a section type carries the rule
of its key, with the check that goes with its type. In full mode the keys of a section differ, since their
names do, and no section is emitted twice.

`Resolves` lists what a type can come to, and `declared_of_build?` what a contract has of its endpoint, part by
part and field by field: what is proved of emitted fields is proved of a field that is declared, and not over the
loops that gather them.
-/

namespace ApiContracts.Compile

/-- A type of the emitted source and the check of its values. -/
inductive Agrees : BaseType → Check String → Prop where
  | primitive (p : Primitive) : Agrees (.primitive p) p.check
  | enum (name : String) : Agrees (.named name) (.enum name)
  | nested (name : String) : Agrees (.named name) (.nested name)

/-- The rule of a field says of its key what the type of the field says. -/
structure SectionField.Coherent (f : SectionField) : Prop where
  name : f.name = fieldName f.key
  rule : f.rule = ⟨f.key, f.rule.check, !f.type.optional, f.type.array⟩
  check : Agrees f.type.base f.rule.check

structure SectionType.Coherent (s : SectionType) : Prop where
  fields : ∀ f ∈ s.fields, f.Coherent
  keys : (s.fields.map (·.key)).Nodup

structure Contract.Coherent (c : Contract) : Prop where
  sections : ∀ s ∈ c.sections, s.Coherent
  parts : (c.sections.map (·.part)).Nodup

theorem exists_left_of_mem {α β : Type} {R : α → β → Prop} {as : List α} {bs : List β} (h : List.Forall₂ R as bs)
    {b : β} (hb : b ∈ bs) : ∃ a ∈ as, R a b := by
  obtain ⟨i, hi, rfl⟩ := List.getElem_of_mem hb
  have hi' : i < as.length := h.length_eq ▸ hi
  exact ⟨as[i], List.getElem_mem hi', h.get hi' hi⟩

theorem forall₂_mem_right {α β : Type} {R : α → β → Prop} {as : List α} {bs : List β} (h : List.Forall₂ R as bs) :
    List.Forall₂ (fun a b => b ∈ bs ∧ R a b) as bs := by
  have hflip : List.Forall₂ (flip fun a b => b ∈ bs ∧ R a b) bs as :=
    (List.forall₂_and_left bs as).2 ⟨fun _ hb => hb, h.flip⟩
  exact hflip.flip

/-! ### Resolving -/

/-- What a type comes to for the module at `place`. -/
inductive Resolves (lookups : Lookups) (place : String) : TypeReference → Resolved → Prop where
  | native {name : String} {p : Primitive} (h : Primitive.ofNative? name = some p) :
      Resolves lookups place (.native name) ⟨.primitive p, p.check, none⟩
  | schema {name target : String} (h : lookups.schemas.get? name = some target) :
      Resolves lookups place (.schema name) ⟨.named name, .nested name, some ⟨relativePath place target, name⟩⟩
  | table {name target : String} (h : lookups.models.get? name = some target) :
      Resolves lookups place (.table name) ⟨.named name, .nested name, some ⟨relativePath place target, name⟩⟩
  | enum {name target : String} (h : lookups.models.get? name = some target) :
      Resolves lookups place (.enum name) ⟨.named name, .enum name, some ⟨relativePath place target, name⟩⟩

namespace Lookups

variable {lookups : Lookups} {place endpoint : String} {type : TypeReference} {resolved : Resolved}

theorem find_eq_ok {table : Table String} {kind tableName name target : String} :
    find table kind tableName name endpoint = .ok target ↔ table.get? name = some target := by
  rw [find]
  cases table.get? name <;> simp

/-- The endpoint that asks for a type is only told where that is not known. -/
theorem resolve_eq_ok : lookups.resolve place endpoint type = .ok resolved ↔ Resolves lookups place type resolved := by
  constructor
  · intro h
    cases type with
    | native name =>
        rw [resolve] at h
        split at h
        · next p hnative =>
            cases h
            exact .native hnative
        · cases h
    | schema name =>
        obtain ⟨target, htarget, rfl⟩ := map_eq_ok.1 h
        exact .schema (find_eq_ok.1 htarget)
    | table name =>
        obtain ⟨target, htarget, rfl⟩ := map_eq_ok.1 h
        exact .table (find_eq_ok.1 htarget)
    | enum name =>
        obtain ⟨target, htarget, rfl⟩ := map_eq_ok.1 h
        exact .enum (find_eq_ok.1 htarget)
  · intro h
    cases h with
    | native hnative => rw [resolve, hnative]
    | schema htarget | table htarget | enum htarget => exact map_eq_ok.2 ⟨_, find_eq_ok.2 htarget, rfl⟩

theorem agrees_resolve (h : lookups.resolve place endpoint type = .ok resolved) :
    Agrees resolved.base resolved.check := by
  cases resolve_eq_ok.1 h with
  | native => exact .primitive _
  | schema | table => exact .nested _
  | enum => exact .enum _

end Lookups

/-! ### The fields of one section -/

section Fields

variable {lookups : Lookups} {config : Config} {place endpoint : String} {part : Section}

/-- The field that is declared for a key. -/
def declaredField (f : Field) (resolved : Resolved) : SectionField :=
  ⟨fieldName f.key, f.key, ⟨resolved.base, f.array, !f.required⟩,
    ⟨f.key, resolved.check, f.required, f.array⟩⟩

theorem sectionFields_cons_eq_ok {done : List SectionField} {imports : Table Import} {f : Field}
    {rest : List Field} {out : List SectionField × Table Import} :
    sectionFields lookups config place endpoint part done imports (f :: rest) = .ok out
      ↔ ∃ resolved, lookups.resolve place endpoint f.type = .ok resolved
        ∧ (config.mode = .full → ∀ d ∈ done, d.name.text ≠ (fieldName f.key).text)
        ∧ sectionFields lookups config place endpoint part (done ++ [declaredField f resolved])
            (addImport imports resolved.source) rest = .ok out := by
  rw [sectionFields, bind_eq_ok]
  refine exists_congr fun resolved => and_congr_right fun _ => ?_
  by_cases hfull : config.mode = .full
  · rw [if_pos hfull]
    cases hfind : done.find? fun d => d.name.text == (fieldName f.key).text with
    | none =>
        have hfree : ∀ d ∈ done, d.name.text ≠ (fieldName f.key).text := by
          intro d hd heq
          simpa [heq] using List.find?_eq_none.1 hfind d hd
        exact (and_iff_right fun _ => hfree).symm
    | some first =>
        have htaken : ¬ ∀ d ∈ done, d.name.text ≠ (fieldName f.key).text := by
          intro hfree
          exact hfree first (List.mem_of_find?_eq_some hfind) (by simpa using List.find?_some hfind)
        constructor
        · rintro ⟨⟩
        · rintro ⟨hfree, -⟩
          exact absurd (hfree hfull) htaken
  · simp [hfull, declaredField]

/-- Whether a field is the one declared for a field of the description, whose type is known. -/
def Declares (lookups : Lookups) (place endpoint : String) (f : Field) (d : SectionField) : Prop :=
  ∃ resolved, lookups.resolve place endpoint f.type = .ok resolved ∧ d = declaredField f resolved

theorem Declares.coherent {f : Field} {d : SectionField} (h : Declares lookups place endpoint f d) :
    d.Coherent := by
  obtain ⟨resolved, hresolve, rfl⟩ := h
  exact ⟨rfl, by simp [declaredField], Lookups.agrees_resolve hresolve⟩

theorem declares_sectionFields {done : List SectionField} {imports : Table Import}
    {fields : List Field} {out : List SectionField × Table Import}
    (h : sectionFields lookups config place endpoint part done imports fields = .ok out) :
    ∃ declared, out.1 = done ++ declared ∧ List.Forall₂ (Declares lookups place endpoint) fields declared := by
  induction fields generalizing done imports with
  | nil =>
      rw [sectionFields, Except.ok.injEq] at h
      exact ⟨[], by rw [← h, List.append_nil], .nil⟩
  | cons f rest ih =>
      obtain ⟨resolved, hresolve, -, h⟩ := sectionFields_cons_eq_ok.1 h
      obtain ⟨declared, hout, hdeclared⟩ := ih h
      refine ⟨declaredField f resolved :: declared, ?_, .cons ⟨resolved, hresolve, rfl⟩ hdeclared⟩
      rw [hout, List.append_assoc, List.singleton_append]

theorem declares_section {imports : Table Import} {fields : List Field} {out : List SectionField × Table Import}
    (h : sectionFields lookups config place endpoint part [] imports fields = .ok out) :
    List.Forall₂ (Declares lookups place endpoint) fields out.1 := by
  obtain ⟨declared, hout, hdeclared⟩ := declares_sectionFields h
  rwa [hout, List.nil_append]

theorem coherent_sectionFields {imports : Table Import} {fields : List Field}
    {out : List SectionField × Table Import}
    (h : sectionFields lookups config place endpoint part [] imports fields = .ok out) :
    ∀ f ∈ out.1, f.Coherent := by
  intro d hd
  obtain ⟨f, -, hf⟩ := exists_left_of_mem (declares_section h) hd
  exact hf.coherent

theorem nodup_names_sectionFields (hfull : config.mode = .full) {done : List SectionField}
    {imports : Table Import} {fields : List Field} {out : List SectionField × Table Import}
    (h : sectionFields lookups config place endpoint part done imports fields = .ok out)
    (hdone : (done.map (·.name.text)).Nodup) : (out.1.map (·.name.text)).Nodup := by
  induction fields generalizing done imports with
  | nil =>
      rw [sectionFields, Except.ok.injEq] at h
      exact h ▸ hdone
  | cons f rest ih =>
      obtain ⟨resolved, -, hfree, h⟩ := sectionFields_cons_eq_ok.1 h
      refine ih h ?_
      rw [List.map_append, List.map_singleton, List.nodup_append]
      refine ⟨hdone, List.nodup_singleton _, ?_⟩
      intro name hname name' hname'
      obtain ⟨d, hd, rfl⟩ := List.mem_map.1 hname
      rw [List.mem_singleton.1 hname']
      exact hfree hfull d hd

/-- Fields of different names have different keys, since the key decides the name. -/
theorem SectionType.coherent_of_names {s : SectionType} (hfields : ∀ f ∈ s.fields, f.Coherent)
    (hnames : (s.fields.map (·.name.text)).Nodup) : s.Coherent := by
  refine ⟨hfields, List.Nodup.of_map (fun key => (fieldName key).text) ?_⟩
  have hsame : (s.fields.map (·.key)).map (fun key => (fieldName key).text)
      = s.fields.map (·.name.text) := by
    rw [List.map_map]
    refine List.map_congr_left ?_
    intro f hf
    simp [(hfields f hf).name]
  rw [hsame]
  exact hnames

end Fields

/-! ### All sections -/

section Sections

variable {lookups : Lookups} {config : Config} {place : String} {e : Endpoint}

theorem sectionTypes_cons_eq_ok {part : Section} {rest : List Section} {imports : Table Import}
    {out : List SectionType × Table Import} :
    sectionTypes lookups config place e imports (part :: rest) = .ok out
      ↔ e.fieldsOf part = [] ∧ sectionTypes lookups config place e imports rest = .ok out
        ∨ e.fieldsOf part ≠ [] ∧ ∃ fields others,
          sectionFields lookups config place e.key part [] imports (e.fieldsOf part) = .ok fields
            ∧ sectionTypes lookups config place e fields.2 rest = .ok others
            ∧ out = (⟨part, fields.1⟩ :: others.1, others.2) := by
  rw [sectionTypes]
  cases e.fieldsOf part with
  | nil => simp
  | cons f fs =>
      simp only [bind_eq_ok, reduceCtorEq, false_and, false_or, ne_eq, not_false_eq_true, true_and]
      refine exists_congr fun fields => ?_
      rw [← exists_and_left]
      refine exists_congr fun others => and_congr_right fun _ => and_congr_right fun _ => ?_
      simp [pure, Except.pure, eq_comm]

theorem sublist_sectionTypes {parts : List Section} {imports : Table Import}
    {out : List SectionType × Table Import}
    (h : sectionTypes lookups config place e imports parts = .ok out) :
    List.Sublist (out.1.map (·.part)) parts := by
  induction parts generalizing imports out with
  | nil =>
      rw [sectionTypes, Except.ok.injEq] at h
      simp [← h]
  | cons part rest ih =>
      rcases sectionTypes_cons_eq_ok.1 h with ⟨-, h⟩ | ⟨-, fields, others, -, hothers, rfl⟩
      · exact (ih h).cons part
      · exact (ih hothers).cons_cons part

/-- The parts that a contract declares: in full mode those with fields, and else none. -/
def declaredParts (mode : Mode) (e : Endpoint) : List Section :=
  if mode = .full then Section.order.filter fun part => e.fieldsOf part ≠ [] else []

structure DeclaresPart (lookups : Lookups) (place : String) (e : Endpoint) (part : Section) (s : SectionType) :
    Prop where
  part_eq : s.part = part
  fields : List.Forall₂ (Declares lookups place e.key) (e.fieldsOf part) s.fields

theorem declares_sectionTypes {parts : List Section} {imports : Table Import} {out : List SectionType × Table Import}
    (h : sectionTypes lookups config place e imports parts = .ok out) :
    List.Forall₂ (DeclaresPart lookups place e) (parts.filter fun part => e.fieldsOf part ≠ []) out.1 := by
  induction parts generalizing imports out with
  | nil =>
      rw [sectionTypes, Except.ok.injEq] at h
      rw [← h]
      exact .nil
  | cons part rest ih =>
      rcases sectionTypes_cons_eq_ok.1 h with ⟨hnone, h⟩ | ⟨hsome, fields, others, hfields, hothers, rfl⟩
      · rw [List.filter_cons_of_neg (by simpa using hnone)]
        exact ih h
      · rw [List.filter_cons_of_pos (by simpa using hsome)]
        exact .cons ⟨rfl, declares_section hfields⟩ (ih hothers)

theorem coherent_sectionTypes (hfull : config.mode = .full) {parts : List Section}
    {imports : Table Import} {out : List SectionType × Table Import}
    (h : sectionTypes lookups config place e imports parts = .ok out) :
    ∀ s ∈ out.1, s.Coherent := by
  induction parts generalizing imports out with
  | nil =>
      rw [sectionTypes, Except.ok.injEq] at h
      simp [← h]
  | cons part rest ih =>
      rcases sectionTypes_cons_eq_ok.1 h with ⟨-, h⟩ | ⟨-, fields, others, hfields, hothers, rfl⟩
      · exact ih h
      · rw [List.forall_mem_cons]
        refine ⟨SectionType.coherent_of_names ?_ ?_, ih hothers⟩
        · exact coherent_sectionFields hfields
        · exact nodup_names_sectionFields hfull hfields (by simp)

end Sections

namespace Contract

variable {lookups : Lookups} {config : Config} {e : Endpoint} {c : Contract}

theorem isMinimal_of_build? (hfull : config.mode = .full) (h : build? lookups config e = .ok c) :
    c.isMinimal = false := by
  rw [build?] at h
  obtain ⟨⟨sections, imports⟩, -, h⟩ := bind_eq_ok.1 h
  obtain ⟨result, -, h⟩ := bind_eq_ok.1 h
  cases h
  simp [isMinimal, hfull]

theorem declared_of_build? (h : build? lookups config e = .ok c) :
    List.Forall₂ (DeclaresPart lookups c.modulePath e) (declaredParts config.mode e) c.sections := by
  rw [build?] at h
  obtain ⟨⟨sections, imports⟩, hsections, h⟩ := bind_eq_ok.1 h
  obtain ⟨result, -, h⟩ := bind_eq_ok.1 h
  cases h
  rw [declaredParts]
  by_cases hfull : config.mode = .full
  · simp only [hfull, if_true]
    exact declares_sectionTypes hsections
  · simp only [hfull, if_false]
    exact .nil

theorem coherent_of_build? (hfull : config.mode = .full) (h : build? lookups config e = .ok c) :
    c.Coherent := by
  rw [build?] at h
  obtain ⟨⟨sections, imports⟩, hsections, h⟩ := bind_eq_ok.1 h
  obtain ⟨result, -, h⟩ := bind_eq_ok.1 h
  cases h
  simp only [hfull, if_true]
  refine ⟨coherent_sectionTypes hfull hsections, ?_⟩
  refine List.Nodup.sublist (sublist_sectionTypes hsections) ?_
  decide

end Contract

end ApiContracts.Compile

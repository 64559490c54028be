import ApiContracts.Proofs.Compile.Package
import ApiContracts.Proofs.Table

/-!
# Which descriptions are accepted, and what the others are refused for

A description is read once, from its first endpoint to its last, and refused at the first thing that is
wrong. What is wrong with an element of a list may depend on the elements before it, since names clash
with earlier names; `FirstFailure` is the first failing element of such a list. The fields of a section, the
sections of an endpoint and the endpoints of a description are three lists of this kind, one inside the
other.

Whether anything is wrong at all does not depend on any order, and a contract is made from its own endpoint
alone. So the endpoints of an accepted description may be listed in any order: every contract stays as it
is, and so does the manifest.
-/

namespace ApiContracts

section FirstFailure

variable {α ε : Type} {fails : List α → α → ε → Prop}

/-- The first element that fails, and how; whether an element fails may depend on those before it. -/
def FirstFailure (fails : List α → α → ε → Prop) (xs : List α) (fault : ε) : Prop :=
  ∃ before x after, xs = before ++ x :: after
    ∧ (∀ ahead d, ahead ++ [d] <+: before → ∀ other, ¬ fails ahead d other) ∧ fails before x fault

theorem not_firstFailure_nil {fault : ε} : ¬ FirstFailure fails [] fault := by
  rintro ⟨before, x, after, heq, -⟩
  cases before <;> cases heq

theorem firstFailure_cons {x : α} {xs : List α} {fault : ε} :
    FirstFailure fails (x :: xs) fault
      ↔ fails [] x fault
        ∨ (∀ other, ¬ fails [] x other) ∧ FirstFailure (fun before => fails (x :: before)) xs fault := by
  constructor
  · rintro ⟨before, y, after, heq, hpass, hfails⟩
    cases before with
    | nil =>
        obtain ⟨rfl, rfl⟩ := List.cons.inj heq
        exact Or.inl hfails
    | cons b before =>
        obtain ⟨rfl, rfl⟩ := List.cons.inj heq
        refine Or.inr ⟨hpass [] x (by simp), before, y, after, rfl, ?_, hfails⟩
        intro ahead d hprefix
        exact hpass (x :: ahead) d (List.cons_prefix_cons.2 ⟨rfl, hprefix⟩)
  · rintro (hfails | ⟨hx, before, y, after, rfl, hpass, hfails⟩)
    · exact ⟨[], x, xs, rfl, by simp, hfails⟩
    · refine ⟨x :: before, y, after, rfl, ?_, hfails⟩
      intro ahead d hprefix
      cases ahead with
      | nil =>
          obtain ⟨rfl, -⟩ := List.cons_prefix_cons.1 hprefix
          exact hx
      | cons a ahead =>
          obtain ⟨rfl, hrest⟩ := List.cons_prefix_cons.1 hprefix
          exact hpass ahead d hrest

theorem firstFailure_of_fails {x : α} {xs : List α} {fault found : ε}
    (h : ∀ other, fails [] x other ↔ found = other) :
    FirstFailure fails (x :: xs) fault ↔ found = fault := by
  rw [firstFailure_cons, h]
  constructor
  · rintro (heq | ⟨hnone, -⟩)
    · exact heq
    · exact absurd ((h found).2 rfl) (hnone found)
  · exact Or.inl

theorem firstFailure_of_passes {x : α} {xs : List α} {fault : ε} (h : ∀ other, ¬ fails [] x other) :
    FirstFailure fails (x :: xs) fault ↔ FirstFailure (fun before => fails (x :: before)) xs fault := by
  rw [firstFailure_cons, or_iff_right (h fault), and_iff_right h]

end FirstFailure

section Taken

variable {α β : Type} {name key : α → String} {name' key' : β → String} {done : List α} {given : List β}

/-- What has been taken stands for what was given, by name and key. -/
def Taken (name key : α → String) (name' key' : β → String) (done : List α) (given : List β) : Prop :=
  done.map (fun a => (name a, key a)) = given.map fun b => (name' b, key' b)

theorem Taken.concat (h : Taken name key name' key' done given) {a : α} {b : β} (hname : name a = name' b)
    (hkey : key a = key' b) : Taken name key name' key' (done ++ [a]) (given ++ [b]) := by
  rw [Taken, List.map_append, h, List.map_append, List.map_singleton, hname, hkey, List.map_singleton]

theorem Taken.names (h : Taken name key name' key' done given) : done.map name = given.map name' := by
  have heq := congrArg (List.map Prod.fst) h
  rw [List.map_map, List.map_map] at heq
  exact heq

theorem Taken.exists_find? (h : Taken name key name' key' done given) (hnames : (given.map name').Nodup)
    {b : β} (hb : b ∈ given) :
    ∃ a, done.find? (fun a => name a == name' b) = some a ∧ key a = key' b := by
  have hmem : (name' b, key' b) ∈ done.map fun a => (name a, key a) := by
    rw [h]
    exact List.mem_map.2 ⟨b, hb, rfl⟩
  obtain ⟨a, ha, heq⟩ := List.mem_map.1 hmem
  rw [Prod.mk.injEq] at heq
  exact ⟨a, (find?_key_iff (h.names ▸ hnames)).2 ⟨ha, heq.1⟩, heq.2⟩

end Taken

namespace Compile

/-! ### Types that are known -/

/-- Whether a type can be resolved: a native one by its name in any letter case, any other one in the look-up
table of its kind. -/
def Lookups.Knows (lookups : Lookups) : TypeReference → Prop
  | .native name => ∃ p : Primitive, Text.lower name ∈ p.natives
  | .schema name => name ∈ lookups.schemas.keys
  | .table name | .enum name => name ∈ lookups.models.keys

def unknownFault (endpoint : String) : TypeReference → Fault
  | .native name => .unknownNative name endpoint
  | .schema name => .unresolvedType "schema" name "schema" endpoint
  | .table name => .unresolvedType "table" name "model" endpoint
  | .enum name => .unresolvedType "enum" name "model" endpoint

namespace Lookups

variable {lookups : Lookups} {place endpoint : String} {type : TypeReference}

theorem isSome_ofNative? {name : String} :
    (Primitive.ofNative? name).isSome ↔ ∃ p : Primitive, Text.lower name ∈ p.natives := by
  have hall : ∀ p : Primitive, p ∈ Primitive.all := by
    intro p
    cases p <;> decide
  rw [Primitive.ofNative?, List.find?_isSome]
  simp [hall]

theorem isOk_find {table : Table String} {kind tableName name : String} :
    (find table kind tableName name endpoint).isOk = true ↔ name ∈ table.keys := by
  rw [Table.keys, Table.mem_keys_iff, find]
  cases table.get? name <;> simp

theorem isOk_resolve : (lookups.resolve place endpoint type).isOk = true ↔ lookups.Knows type := by
  cases type with
  | native name =>
      rw [resolve, Knows, ← isSome_ofNative?]
      cases Primitive.ofNative? name <;> simp
  | schema name | table name | enum name =>
      rw [resolve, isOk_map, isOk_find]
      rfl

theorem fault_of_find {table : Table String} {kind tableName name : String} {fault : Fault}
    (h : find table kind tableName name endpoint = .error fault) :
    .unresolvedType kind name tableName endpoint = fault := by
  rw [find] at h
  split at h
  · cases h
  · exact Except.error.inj h

theorem fault_of_resolve {fault : Fault} (h : lookups.resolve place endpoint type = .error fault) :
    unknownFault endpoint type = fault := by
  cases type with
  | native name =>
      rw [resolve] at h
      split at h
      · cases h
      · exact Except.error.inj h
  | schema name | table name | enum name =>
      rw [resolve, map_eq_error] at h
      exact fault_of_find h

end Lookups

/-! ### What fails, and in which order -/

def fieldNames (fields : List Field) : List String := fields.map fun f => (fieldName f.key).text

/-- How a field fails, behind those in `before`: by its type, or else by its name. -/
inductive FieldFails (lookups : Lookups) (mode : Mode) (endpoint : String) (part : Section)
    (before : List Field) (f : Field) : Fault → Prop where
  | type (hunknown : ¬ lookups.Knows f.type) :
      FieldFails lookups mode endpoint part before f (unknownFault endpoint f.type)
  | name (hknown : lookups.Knows f.type) (hfull : mode = .full) {d : Field} (hd : d ∈ before)
      (hname : (fieldName d.key).text = (fieldName f.key).text) :
      FieldFails lookups mode endpoint part before f
        (.duplicateField endpoint part (fieldName f.key).text d.key f.key)

/-- How the sections of an endpoint fail: in their order, each at the first of its fields that does. -/
def SectionFails (lookups : Lookups) (mode : Mode) (e : Endpoint) (fault : Fault) : Prop :=
  FirstFailure (fun _ part => FirstFailure (FieldFails lookups mode e.key part) (e.fieldsOf part))
    Section.order fault

/-- How an endpoint fails, behind those in `before`: by a section, or else by its result, or else by the name
of its contract. -/
inductive EndpointFails (lookups : Lookups) (mode : Mode) (before : List Endpoint) (e : Endpoint) :
    Fault → Prop where
  | field {fault : Fault} (hfield : SectionFails lookups mode e fault) :
      EndpointFails lookups mode before e fault
  | result (hfields : ∀ fault, ¬ SectionFails lookups mode e fault)
      (hunknown : ¬ lookups.Knows e.returns.type) :
      EndpointFails lookups mode before e (unknownFault e.key e.returns.type)
  | name (hfields : ∀ fault, ¬ SectionFails lookups mode e fault) (hknown : lookups.Knows e.returns.type)
      {d : Endpoint} (hd : d ∈ before) (hname : identifier d.verb d.path = identifier e.verb e.path) :
      EndpointFails lookups mode before e
        (.duplicateContract (identifier e.verb e.path) d.key e.key)

/-! ### The fields of one section -/

section Fields

variable {lookups : Lookups} {mode : Mode} {endpoint : String} {part : Section} {before : List Field}
  {f : Field} {fault : Fault}

theorem fieldFails_of_unknown (h : ¬ lookups.Knows f.type) :
    FieldFails lookups mode endpoint part before f fault ↔ unknownFault endpoint f.type = fault := by
  constructor
  · intro hfails
    cases hfails with
    | type => rfl
    | name hknown => exact absurd hknown h
  · rintro rfl
    exact .type h

theorem fieldFails_of_clash (hknown : lookups.Knows f.type) (hfull : mode = .full)
    (hnames : (fieldNames before).Nodup) {d : Field} (hd : d ∈ before)
    (hname : (fieldName d.key).text = (fieldName f.key).text) :
    FieldFails lookups mode endpoint part before f fault
      ↔ .duplicateField endpoint part (fieldName f.key).text d.key f.key = fault := by
  constructor
  · intro hfails
    cases hfails with
    | type hunknown => exact absurd hknown hunknown
    | name _ _ hd' hname' => rw [List.inj_on_of_nodup_map hnames hd' hd (hname'.trans hname.symm)]
  · rintro rfl
    exact .name hknown hfull hd hname

theorem not_fieldFails (hknown : lookups.Knows f.type)
    (hfree : mode = .full → (fieldName f.key).text ∉ fieldNames before) :
    ¬ FieldFails lookups mode endpoint part before f fault := by
  intro hfails
  cases hfails with
  | type hunknown => exact hunknown hknown
  | name _ hfull hd hname => exact hfree hfull (List.mem_map.2 ⟨_, hd, hname⟩)

variable {config : Config} {place : String} {done : List SectionField} {imports : Table Import}
  {rest : List Field}

abbrev TakenFields (done : List SectionField) (before : List Field) : Prop :=
  Taken (fun d => d.name.text) (fun d => d.key) (fun f => (fieldName f.key).text) (fun f => f.key) done before

theorem sectionFields_of_unknown (h : ¬ lookups.Knows f.type) :
    sectionFields lookups config place endpoint part done imports (f :: rest)
      = .error (unknownFault endpoint f.type) := by
  cases hresolve : lookups.resolve place endpoint f.type with
  | error fault =>
      rw [sectionFields, hresolve, Lookups.fault_of_resolve hresolve]
      rfl
  | ok resolved =>
      have hok : (lookups.resolve place endpoint f.type).isOk = true := by rw [hresolve, isOk_ok]
      exact absurd (Lookups.isOk_resolve.1 hok) h

theorem sectionFields_of_clash {first : SectionField} (hknown : lookups.Knows f.type)
    (hfull : config.mode = .full)
    (hfirst : done.find? (fun d => d.name.text == (fieldName f.key).text) = some first) :
    sectionFields lookups config place endpoint part done imports (f :: rest)
      = .error (.duplicateField endpoint part (fieldName f.key).text first.key f.key) := by
  obtain ⟨resolved, hresolve⟩ := isOk_iff.1 (Lookups.isOk_resolve.2 hknown)
  rw [sectionFields, hresolve]
  simp only [bind, Except.bind, hfull, if_true, hfirst]
  rfl

theorem sectionFields_of_free (hknown : lookups.Knows f.type)
    (hfree : config.mode = .full → (fieldName f.key).text ∉ done.map (·.name.text)) :
    ∃ resolved, sectionFields lookups config place endpoint part done imports (f :: rest)
      = sectionFields lookups config place endpoint part (done ++ [declaredField f resolved])
          (addImport imports resolved.source) rest := by
  obtain ⟨resolved, hresolve⟩ := isOk_iff.1 (Lookups.isOk_resolve.2 hknown)
  refine ⟨resolved, ?_⟩
  rw [sectionFields, hresolve]
  by_cases hfull : config.mode = .full
  · have hnone : (done.find? fun d => d.name.text == (fieldName f.key).text) = none := by
      rw [List.find?_eq_none]
      intro d hd hname
      exact hfree hfull (List.mem_map.2 ⟨d, hd, eq_of_beq hname⟩)
    simp only [bind, Except.bind, hfull, if_true, hnone]
    rfl
  · simp only [bind, Except.bind, hfull, if_false]
    rfl

/-- The fields of a section are refused at the first of them that fails. -/
theorem sectionFields_eq_error {fields : List Field} (hdone : TakenFields done before)
    (hnames : config.mode = .full → (fieldNames before).Nodup) :
    sectionFields lookups config place endpoint part done imports fields = .error fault
      ↔ FirstFailure (fun ahead => FieldFails lookups config.mode endpoint part (before ++ ahead)) fields
          fault := by
  induction fields generalizing done before imports with
  | nil => simp [sectionFields, not_firstFailure_nil]
  | cons f rest ih =>
      by_cases hknown : lookups.Knows f.type
      · by_cases hclash : config.mode = .full ∧ (fieldName f.key).text ∈ fieldNames before
        · obtain ⟨hfull, hmem⟩ := hclash
          obtain ⟨d, hd, hname⟩ := List.mem_map.1 hmem
          obtain ⟨first, hfind, hkey⟩ := hdone.exists_find? (hnames hfull) hd
          rw [hname] at hfind
          rw [sectionFields_of_clash hknown hfull hfind, hkey, Except.error.injEq]
          refine (firstFailure_of_fails fun other => ?_).symm
          rw [List.append_nil]
          exact fieldFails_of_clash hknown hfull (hnames hfull) hd hname
        · rw [not_and] at hclash
          have hfree : config.mode = .full → (fieldName f.key).text ∉ done.map (·.name.text) := by
            rw [hdone.names]
            exact hclash
          obtain ⟨resolved, hnext⟩ : ∃ resolved,
              sectionFields lookups config place endpoint part done imports (f :: rest)
                = sectionFields lookups config place endpoint part (done ++ [declaredField f resolved])
                    (addImport imports resolved.source) rest := sectionFields_of_free hknown hfree
          have hnames' : config.mode = .full → (fieldNames (before ++ [f])).Nodup := by
            intro hfull
            rw [fieldNames, List.map_append, List.map_singleton, ← List.concat_eq_append, List.nodup_concat]
            exact ⟨hclash hfull, hnames hfull⟩
          have hpasses : ∀ other, ¬ FieldFails lookups config.mode endpoint part (before ++ []) f other := by
            intro other
            rw [List.append_nil]
            exact not_fieldFails hknown hclash
          rw [hnext, ih (hdone.concat rfl rfl) hnames', firstFailure_of_passes hpasses]
          simp only [List.append_assoc, List.singleton_append]
      · rw [sectionFields_of_unknown hknown, Except.error.injEq]
        refine (firstFailure_of_fails fun other => ?_).symm
        exact fieldFails_of_unknown hknown

theorem names_concat (done : List SectionField) (f : Field) (resolved : Resolved) (fields : List Field) :
    (done ++ [declaredField f resolved]).map (·.name.text) ++ fieldNames fields
      = done.map (·.name.text) ++ fieldNames (f :: fields) := by
  rw [List.map_append, List.append_assoc]
  rfl

theorem isOk_sectionFields {fields : List Field}
    (hnames : config.mode = .full → (done.map (·.name.text)).Nodup) :
    (sectionFields lookups config place endpoint part done imports fields).isOk = true
      ↔ (∀ f ∈ fields, lookups.Knows f.type)
        ∧ (config.mode = .full → (done.map (·.name.text) ++ fieldNames fields).Nodup) := by
  induction fields generalizing done imports with
  | nil => simpa [sectionFields, fieldNames] using hnames
  | cons f rest ih =>
      simp only [isOk_iff, sectionFields_cons_eq_ok] at ih ⊢
      rw [List.forall_mem_cons]
      constructor
      · rintro ⟨out, resolved, hresolve, hfree, hrest⟩
        have hnames' : config.mode = .full →
            ((done ++ [declaredField f resolved]).map (·.name.text)).Nodup := by
          intro hfull
          rw [List.map_append, List.map_singleton, ← List.concat_eq_append, List.nodup_concat]
          refine ⟨?_, hnames hfull⟩
          intro hmem
          obtain ⟨d, hd, hname⟩ := List.mem_map.1 hmem
          exact hfree hfull d hd hname
        obtain ⟨hknown, hnodup⟩ := (ih hnames').1 ⟨out, hrest⟩
        rw [names_concat] at hnodup
        exact ⟨⟨Lookups.isOk_resolve.1 (isOk_iff.2 ⟨resolved, hresolve⟩), hknown⟩, hnodup⟩
      · rintro ⟨⟨hf, hknown⟩, hnodup⟩
        obtain ⟨resolved, hresolve⟩ := isOk_iff.1 (Lookups.isOk_resolve.2 hf)
        rw [← names_concat done f resolved] at hnodup
        obtain ⟨out, hrest⟩ := (ih fun hfull => (hnodup hfull).of_append_left).2 ⟨hknown, hnodup⟩
        refine ⟨out, resolved, hresolve, ?_, hrest⟩
        intro hfull d hd hname
        have hnames' := (hnodup hfull).of_append_left
        rw [List.map_append, List.map_singleton, ← List.concat_eq_append, List.nodup_concat] at hnames'
        exact hnames'.1 (List.mem_map.2 ⟨d, hd, hname⟩)

end Fields

/-! ### The sections of one endpoint -/

section Sections

variable {lookups : Lookups} {config : Config} {place : String} {e : Endpoint} {imports : Table Import}
  {parts : List Section}

theorem sectionTypes_of_declared {part : Section} (h : e.fieldsOf part ≠ []) :
    sectionTypes lookups config place e imports (part :: parts)
      = sectionFields lookups config place e.key part [] imports (e.fieldsOf part) >>= fun fields =>
          (sectionTypes lookups config place e fields.2 parts).map fun others =>
            (⟨part, fields.1⟩ :: others.1, others.2) := by
  rw [sectionTypes]
  cases hfields : e.fieldsOf part with
  | nil => exact absurd hfields h
  | cons f fields =>
      dsimp only
      cases sectionFields lookups config place e.key part [] imports (f :: fields) with
      | error fault => rfl
      | ok types =>
          simp only [bind, Except.bind]
          cases sectionTypes lookups config place e types.2 parts <;> rfl

theorem partFails_iff {part : Section} {fault : Fault} :
    FirstFailure (FieldFails lookups config.mode e.key part) (e.fieldsOf part) fault
      ↔ sectionFields lookups config place e.key part [] imports (e.fieldsOf part) = .error fault := by
  have htaken : TakenFields [] [] := rfl
  have hnames : config.mode = .full → (fieldNames []).Nodup := fun _ => List.nodup_nil
  exact (sectionFields_eq_error htaken hnames).symm

theorem sectionTypes_eq_error {fault : Fault} :
    sectionTypes lookups config place e imports parts = .error fault
      ↔ FirstFailure
          (fun _ part => FirstFailure (FieldFails lookups config.mode e.key part) (e.fieldsOf part))
          parts fault := by
  induction parts generalizing imports with
  | nil => simp [sectionTypes, not_firstFailure_nil]
  | cons part rest ih =>
      by_cases hdeclared : e.fieldsOf part = []
      · have hpasses : ∀ other, ¬ FirstFailure (FieldFails lookups config.mode e.key part)
            (e.fieldsOf part) other := by
          intro other
          rw [hdeclared]
          exact not_firstFailure_nil
        rw [firstFailure_of_passes hpasses, ← @ih imports, sectionTypes, hdeclared]
      · rw [sectionTypes_of_declared hdeclared]
        cases hfields : sectionFields lookups config place e.key part [] imports (e.fieldsOf part) with
        | error found =>
            have hfails : ∀ other, FirstFailure (FieldFails lookups config.mode e.key part)
                (e.fieldsOf part) other ↔ found = other := by
              intro other
              rw [partFails_iff, hfields, Except.error.injEq]
            rw [firstFailure_of_fails hfails]
            exact ⟨Except.error.inj, congrArg Except.error⟩
        | ok types =>
            have hpasses : ∀ other, ¬ FirstFailure (FieldFails lookups config.mode e.key part)
                (e.fieldsOf part) other := by
              intro other hfails
              rw [partFails_iff, hfields] at hfails
              cases hfails
            rw [firstFailure_of_passes hpasses, ← @ih types.2]
            exact map_eq_error

theorem isOk_sectionTypes :
    (sectionTypes lookups config place e imports parts).isOk = true
      ↔ ∀ part ∈ parts, (∀ f ∈ e.fieldsOf part, lookups.Knows f.type)
          ∧ (config.mode = .full → (fieldNames (e.fieldsOf part)).Nodup) := by
  induction parts generalizing imports with
  | nil => simp [sectionTypes]
  | cons part rest ih =>
      rw [List.forall_mem_cons]
      by_cases hdeclared : e.fieldsOf part = []
      · rw [sectionTypes, hdeclared]
        simp [fieldNames, ih]
      · have hnames : config.mode = .full → (([] : List SectionField).map (·.name.text)).Nodup :=
          fun _ => List.nodup_nil
        have hfields : (sectionFields lookups config place e.key part [] imports (e.fieldsOf part)).isOk = true
            ↔ (∀ f ∈ e.fieldsOf part, lookups.Knows f.type)
              ∧ (config.mode = .full → (fieldNames (e.fieldsOf part)).Nodup) := isOk_sectionFields hnames
        rw [sectionTypes_of_declared hdeclared, isOk_bind, ← hfields, isOk_iff]
        simp only [isOk_map, ih, exists_and_right]

end Sections

/-! ### Endpoints -/

/-- What is asked of an endpoint by itself. -/
structure EndpointAccepted (lookups : Lookups) (mode : Mode) (e : Endpoint) : Prop where
  fields : ∀ part, ∀ f ∈ e.fieldsOf part, lookups.Knows f.type
  names : mode = .full → ∀ part, (fieldNames (e.fieldsOf part)).Nodup
  result : lookups.Knows e.returns.type

/-- What is asked of a description: of each endpoint, and that no two contracts have one name. -/
structure Accepted (lookups : Lookups) (mode : Mode) (endpoints : List Endpoint) : Prop where
  each : ∀ e ∈ endpoints, EndpointAccepted lookups mode e
  names : (endpoints.map fun e => identifier e.verb e.path).Nodup

section Endpoints

variable {lookups : Lookups} {config : Config} {e : Endpoint}

theorem sectionFails_iff {place : String} {imports : Table Import} {fault : Fault} :
    SectionFails lookups config.mode e fault
      ↔ sectionTypes lookups config place e imports Section.order = .error fault := by
  exact sectionTypes_eq_error.symm

theorem build?_eq_error {fault : Fault} :
    Contract.build? lookups config e = .error fault
      ↔ SectionFails lookups config.mode e fault
        ∨ (∀ other, ¬ SectionFails lookups config.mode e other)
          ∧ ¬ lookups.Knows e.returns.type ∧ unknownFault e.key e.returns.type = fault := by
  have hsections : ∀ other, SectionFails lookups config.mode e other
      ↔ sectionTypes lookups config (config.contractPath (identifier e.verb e.path)) e .empty Section.order
        = .error other := fun _ => sectionFails_iff
  have hresult : (lookups.resolve (config.contractPath (identifier e.verb e.path)) e.key e.returns.type).isOk = true
      ↔ lookups.Knows e.returns.type := Lookups.isOk_resolve
  simp only [hsections]
  rw [Contract.build?]
  cases sectionTypes lookups config (config.contractPath (identifier e.verb e.path)) e .empty
      Section.order with
  | error found => simp [bind, Except.bind]
  | ok sections =>
      rw [← hresult]
      cases hresolve : lookups.resolve (config.contractPath (identifier e.verb e.path)) e.key
          e.returns.type with
      | error found =>
          rw [Lookups.fault_of_resolve hresolve]
          simp [bind, Except.bind]
      | ok result => simp [bind, Except.bind, pure, Except.pure]

theorem isOk_build? :
    (Contract.build? lookups config e).isOk = true ↔ EndpointAccepted lookups config.mode e := by
  have horder : ∀ part, part ∈ Section.order := by
    intro part
    cases part <;> decide
  have hresult : (Contract.build? lookups config e).isOk = true
      ↔ (sectionTypes lookups config (config.contractPath (identifier e.verb e.path)) e .empty
          Section.order).isOk = true ∧ lookups.Knows e.returns.type := by
    rw [Contract.build?, isOk_bind, isOk_iff, ← exists_and_right]
    refine exists_congr fun sections => and_congr_right fun _ => ?_
    have hknown : (lookups.resolve (config.contractPath (identifier e.verb e.path)) e.key e.returns.type).isOk = true
        ↔ lookups.Knows e.returns.type := Lookups.isOk_resolve
    rw [← hknown, isOk_bind, isOk_iff]
    simp
  rw [hresult, isOk_sectionTypes]
  constructor
  · rintro ⟨hsections, hknown⟩
    exact ⟨fun part => (hsections part (horder part)).1,
      fun hfull part => (hsections part (horder part)).2 hfull, hknown⟩
  · rintro ⟨hfields, hnames, hknown⟩
    exact ⟨fun part _ => ⟨hfields part, fun hfull => hnames hfull part⟩, hknown⟩

theorem isOk_build?_iff_passes :
    (Contract.build? lookups config e).isOk = true
      ↔ (∀ fault, ¬ SectionFails lookups config.mode e fault) ∧ lookups.Knows e.returns.type := by
  rw [isOk_iff_ne_error]
  simp only [ne_eq, build?_eq_error]
  constructor
  · intro hpasses
    have hfields : ∀ fault, ¬ SectionFails lookups config.mode e fault :=
      fun fault hfield => hpasses fault (Or.inl hfield)
    refine ⟨hfields, ?_⟩
    by_contra hunknown
    exact hpasses _ (Or.inr ⟨hfields, hunknown, rfl⟩)
  · rintro ⟨hfields, hknown⟩ fault (hfield | ⟨-, hunknown, -⟩)
    · exact hfields fault hfield
    · exact hunknown hknown

theorem endpointFails_iff {before : List Endpoint} {fault : Fault} :
    EndpointFails lookups config.mode before e fault
      ↔ Contract.build? lookups config e = .error fault
        ∨ (Contract.build? lookups config e).isOk = true
          ∧ ∃ d ∈ before, identifier d.verb d.path = identifier e.verb e.path
            ∧ .duplicateContract (identifier e.verb e.path) d.key e.key = fault := by
  rw [isOk_build?_iff_passes, build?_eq_error]
  constructor
  · intro hfails
    cases hfails with
    | field hfield => exact Or.inl (Or.inl hfield)
    | result hfields hunknown => exact Or.inl (Or.inr ⟨hfields, hunknown, rfl⟩)
    | name hfields hknown hd hname => exact Or.inr ⟨⟨hfields, hknown⟩, _, hd, hname, rfl⟩
  · rintro ((hfield | ⟨hfields, hunknown, rfl⟩) | ⟨⟨hfields, hknown⟩, d, hd, hname, rfl⟩)
    · exact .field hfield
    · exact .result hfields hunknown
    · exact .name hfields hknown hd hname

theorem endpointFails_of_clash {before : List Endpoint} {d : Endpoint} {fault : Fault}
    (hbuild : (Contract.build? lookups config e).isOk = true)
    (hnames : (before.map fun e => identifier e.verb e.path).Nodup) (hd : d ∈ before)
    (hname : identifier d.verb d.path = identifier e.verb e.path) :
    EndpointFails lookups config.mode before e fault
      ↔ .duplicateContract (identifier e.verb e.path) d.key e.key = fault := by
  rw [endpointFails_iff]
  constructor
  · rintro (hrefused | ⟨-, d', hd', hname', rfl⟩)
    · exact absurd hrefused (isOk_iff_ne_error.1 hbuild fault)
    · rw [List.inj_on_of_nodup_map hnames hd' hd (hname'.trans hname.symm)]
  · rintro rfl
    exact Or.inr ⟨hbuild, d, hd, hname, rfl⟩

theorem not_endpointFails {before : List Endpoint} {fault : Fault}
    (hbuild : (Contract.build? lookups config e).isOk = true)
    (hfree : identifier e.verb e.path ∉ before.map fun e => identifier e.verb e.path) :
    ¬ EndpointFails lookups config.mode before e fault := by
  rw [endpointFails_iff]
  rintro (hrefused | ⟨-, d, hd, hname, -⟩)
  · exact isOk_iff_ne_error.1 hbuild fault hrefused
  · exact hfree (List.mem_map.2 ⟨d, hd, hname⟩)

abbrev TakenContracts (done : List Contract) (before : List Endpoint) : Prop :=
  Taken (fun c => c.identifier) (fun c => c.endpoint) (fun e => identifier e.verb e.path) (fun e => e.key) done
    before

/-- A description is refused at the first of its endpoints that fails. -/
theorem contracts_eq_error {done : List Contract} {before endpoints : List Endpoint} {fault : Fault}
    (hdone : TakenContracts done before)
    (hnames : (before.map fun e => identifier e.verb e.path).Nodup) :
    Package.contracts lookups config done endpoints = .error fault
      ↔ FirstFailure (fun ahead => EndpointFails lookups config.mode (before ++ ahead)) endpoints fault := by
  induction endpoints generalizing done before with
  | nil => simp [Package.contracts, not_firstFailure_nil]
  | cons e rest ih =>
      rw [Package.contracts]
      cases hbuild : Contract.build? lookups config e with
      | error found =>
          have hfails : ∀ other, EndpointFails lookups config.mode (before ++ []) e other ↔ found = other := by
            intro other
            rw [endpointFails_iff, hbuild]
            simp
          rw [firstFailure_of_fails hfails]
          exact ⟨Except.error.inj, congrArg Except.error⟩
      | ok c =>
          have hok : (Contract.build? lookups config e).isOk = true := isOk_iff.2 ⟨c, hbuild⟩
          have hname : c.identifier = identifier e.verb e.path := Contract.identifier_of_build? hbuild
          have hkey : c.endpoint = e.key := Contract.endpoint_of_build? hbuild
          simp only [bind, Except.bind, hname]
          by_cases hclash : identifier e.verb e.path ∈ before.map fun e => identifier e.verb e.path
          · obtain ⟨d, hd, hsame⟩ := List.mem_map.1 hclash
            obtain ⟨first, hfind, hfirst⟩ := hdone.exists_find? hnames hd
            rw [hsame] at hfind
            have hfails : ∀ other, EndpointFails lookups config.mode (before ++ []) e other
                ↔ .duplicateContract (identifier e.verb e.path) d.key e.key = other := by
              intro other
              rw [List.append_nil]
              exact endpointFails_of_clash hok hnames hd hsame
            rw [firstFailure_of_fails hfails, hfind, hkey, ← hfirst]
            exact ⟨Except.error.inj, congrArg Except.error⟩
          · have hnone : (done.find? fun d => d.identifier == identifier e.verb e.path) = none := by
              rw [List.find?_eq_none]
              intro d hd heq
              rw [← hdone.names] at hclash
              exact hclash (List.mem_map.2 ⟨d, hd, eq_of_beq heq⟩)
            have hnames' : ((before ++ [e]).map fun e => identifier e.verb e.path).Nodup := by
              rw [List.map_append, List.map_singleton, ← List.concat_eq_append, List.nodup_concat]
              exact ⟨hclash, hnames⟩
            have hpasses : ∀ other, ¬ EndpointFails lookups config.mode (before ++ []) e other := by
              intro other
              rw [List.append_nil]
              exact not_endpointFails hok hclash
            have hrest := ih (hdone.concat hname hkey) hnames'
            simp only [List.append_assoc, List.singleton_append] at hrest
            rw [firstFailure_of_passes hpasses, hnone]
            exact hrest

end Endpoints

/-! ### Descriptions -/

namespace Package

variable {lookups : Lookups} {config : Config} {endpoints : List Endpoint}

theorem exists_forall₂_built (h : ∀ e ∈ endpoints, EndpointAccepted lookups config.mode e) :
    ∃ contracts, List.Forall₂ (fun e c => Contract.build? lookups config e = .ok c) endpoints contracts := by
  induction endpoints with
  | nil => exact ⟨[], .nil⟩
  | cons e rest ih =>
      rw [List.forall_mem_cons] at h
      obtain ⟨c, hbuild⟩ := isOk_iff.1 (isOk_build?.2 h.1)
      obtain ⟨contracts, hrest⟩ := ih h.2
      exact ⟨c :: contracts, .cons hbuild hrest⟩

theorem exists_contracts_iff :
    (∃ contracts, Contracts lookups config endpoints contracts) ↔ Accepted lookups config.mode endpoints := by
  constructor
  · rintro ⟨contracts, h⟩
    refine ⟨?_, h.identifiers_eq ▸ h.names⟩
    intro e he
    obtain ⟨i, hi, rfl⟩ := List.getElem_of_mem he
    have hi' : i < contracts.length := h.length_eq ▸ hi
    have hbuild : Contract.build? lookups config endpoints[i] = .ok contracts[i] := h.built.get hi hi'
    exact isOk_build?.1 (isOk_iff.2 ⟨_, hbuild⟩)
  · rintro ⟨heach, hnames⟩
    obtain ⟨contracts, hbuilt⟩ := exists_forall₂_built heach
    refine ⟨contracts, hbuilt, ?_⟩
    rw [map_of_built hbuilt fun _ _ hbuild => Contract.identifier_of_build? hbuild]
    exact hnames

theorem isOk_compile :
    (compile lookups config endpoints).isOk = true ↔ Accepted lookups config.mode endpoints := by
  rw [← exists_contracts_iff, isOk_iff]
  simp only [compile_eq_ok]
  constructor
  · rintro ⟨p, contracts, h, -⟩
    exact ⟨contracts, h⟩
  · rintro ⟨contracts, h⟩
    exact ⟨_, contracts, h, rfl⟩

theorem compile_eq_error {fault : Fault} :
    compile lookups config endpoints = .error fault
      ↔ FirstFailure (EndpointFails lookups config.mode) endpoints fault := by
  rw [compile, map_eq_error]
  have htaken : TakenContracts [] [] := rfl
  exact contracts_eq_error htaken List.nodup_nil

theorem accepted_perm_iff {mode : Mode} {reordered : List Endpoint} (h : reordered.Perm endpoints) :
    Accepted lookups mode reordered ↔ Accepted lookups mode endpoints := by
  have hnames := (h.map fun e => identifier e.verb e.path).nodup_iff
  constructor
  · rintro ⟨heach, hnodup⟩
    exact ⟨fun e he => heach e (h.mem_iff.2 he), hnames.1 hnodup⟩
  · rintro ⟨heach, hnodup⟩
    exact ⟨fun e he => heach e (h.mem_iff.1 he), hnames.2 hnodup⟩

/-- The file of an endpoint's contract, made from this endpoint alone. -/
def contractFile? (lookups : Lookups) (config : Config) (e : Endpoint) : Option Artifact :=
  (Contract.build? lookups config e).toOption.map (·.artifact)

theorem Contracts.contractFiles {contracts : List Contract}
    (h : Contracts lookups config endpoints contracts) :
    ((ofContracts config contracts).files.take endpoints.length).map some
      = endpoints.map (contractFile? lookups config) := by
  rw [take_files h.length_eq, List.map_map]
  refine map_of_built h.built ?_
  intro e c hbuild
  rw [contractFile?, hbuild]
  rfl

theorem Contracts.manifest_of_perm {reordered : List Endpoint} {contracts others : List Contract}
    (h : Contracts lookups config endpoints contracts) (h' : Contracts lookups config reordered others)
    (hperm : reordered.Perm endpoints) : manifestOf config others = manifestOf config contracts := by
  refine manifestOf_congr h.config_eq h'.config_eq rfl ?_
  intro name
  rw [h.identifiers_eq, h'.identifiers_eq]
  exact (hperm.map _).mem_iff

/-- A description compiles exactly when it is accepted, and is otherwise refused at the first of its endpoints
that fails. Whether it is accepted, the file of each contract and the manifest do not depend on the order of
the endpoints. -/
theorem compiles_iff_accepted_else_first_failure (lookups : Lookups) (config : Config)
    (endpoints : List Endpoint) :
    ((compile lookups config endpoints).isOk = true ↔ Accepted lookups config.mode endpoints)
      ∧ (∀ fault, compile lookups config endpoints = .error fault
          ↔ FirstFailure (EndpointFails lookups config.mode) endpoints fault)
      ∧ ∀ reordered, reordered.Perm endpoints →
          (compile lookups config reordered).isOk = (compile lookups config endpoints).isOk
          ∧ ∀ p q, compile lookups config endpoints = .ok p → compile lookups config reordered = .ok q →
              q.manifest = p.manifest
              ∧ (p.files.take endpoints.length).map some = endpoints.map (contractFile? lookups config)
              ∧ (q.files.take endpoints.length).map some = reordered.map (contractFile? lookups config) := by
  refine ⟨isOk_compile, fun _ => compile_eq_error, ?_⟩
  intro reordered hperm
  refine ⟨?_, ?_⟩
  · rw [Bool.eq_iff_iff, isOk_compile, isOk_compile]
    exact accepted_perm_iff hperm
  · intro p q hp hq
    obtain ⟨contracts, hcontracts, rfl⟩ := compile_eq_ok.1 hp
    obtain ⟨others, hothers, rfl⟩ := compile_eq_ok.1 hq
    refine ⟨hcontracts.manifest_of_perm hothers hperm, hcontracts.contractFiles, ?_⟩
    rw [← hperm.length_eq]
    exact hothers.contractFiles

def faulty : List Endpoint :=
  [.answeringText .get "/a-b",
    { verb := .post
      path := "/user"
      queries := some [{ key := "first-name", type := .native "TEXT" }, { key := "first_name", type := .native "Text" }]
      body := some [{ key := "bio", type := .native "essay" }]
      returns := { type := .table "User" } },
    .answeringText .get "/a_b"]

theorem faulty_refused_reordered_accepted :
    FirstFailure (EndpointFails {} .full) faulty
        (.duplicateField "POST /user" .query "first_name" "first-name" "first_name")
      ∧ FirstFailure (EndpointFails {} .minimal) faulty (.unknownNative "essay" "POST /user")
      ∧ ∃ p q, compile {} {} [.answeringText .get "/a", .answeringText .put "/b"] = .ok p
        ∧ compile {} {} [.answeringText .put "/b", .answeringText .get "/a"] = .ok q
        ∧ q.manifest = p.manifest := by
  have hfull : compile {} {} faulty
      = .error (.duplicateField "POST /user" .query "first_name" "first-name" "first_name") := by rfl
  have hminimal : compile {} { mode := .minimal } faulty = .error (.unknownNative "essay" "POST /user") := by rfl
  obtain ⟨-, -, hreordered⟩ := compiles_iff_accepted_else_first_failure {} {}
    [.answeringText .get "/a", .answeringText .put "/b"]
  have hok : (compile {} {} [.answeringText .get "/a", .answeringText .put "/b"]).isOk = true := by
    decide +kernel
  obtain ⟨hsame, hmanifest⟩ := hreordered [.answeringText .put "/b", .answeringText .get "/a"] (.swap _ _ _)
  obtain ⟨p, hp⟩ := isOk_iff.1 hok
  obtain ⟨q, hq⟩ := isOk_iff.1 (hsame.trans hok)
  exact ⟨((compiles_iff_accepted_else_first_failure {} {} faulty).2.1 _).1 hfull,
    ((compiles_iff_accepted_else_first_failure {} { mode := .minimal } faulty).2.1 _).1 hminimal, p, q, hp, hq,
    (hmanifest p q hp hq).1⟩

end Package

end Compile

end ApiContracts

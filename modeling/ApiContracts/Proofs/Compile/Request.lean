import ApiContracts.Compile.RequestType
import ApiContracts.Proofs.Compile.Contract
import ApiContracts.Proofs.Rules.Validate
import ApiContracts.Proofs.Shape.Record
import ApiContracts.Sample.UserApi
import Mathlib

/-!
# From valid requests to request types

A request that the rules of a contract accept is read next as the request type of the contract. Rule and
type of a field were made from one declaration, so the reading can fail in two ways only: where an integer
does not fit in 64 bits, which the rules do not ask for, and where an array stands for a nested object,
which the rules look into and the type does not. `Contract.Fits` says that a contract holds neither.
-/

namespace ApiContracts

open Json Decimal

def Json.Value.items : Value → List Value
  | .arr items => items
  | _ => []

theorem Json.Value.isNull_iff {v : Value} : v.isNull = true ↔ v = .null := by
  cases v <;> simp [isNull]

/-- What the type of a field asks of a value that passes the check of the field. -/
def Check.Fits (types : Declarations) (check : Check String) (v : Value) : Prop :=
  match check, v with
  | .integer, .int n => isSigned64 n = true
  | .nested name, .arr items => (NamedType.ofShape types name).accepts (.arr items) = true
  | _, _ => True

namespace Compile

def SectionField.Fits (types : Declarations) (f : SectionField) (v : Value) : Prop :=
  ∀ x ∈ (if f.type.array then v.items else [v]), f.rule.check.Fits types x

/-- Every value that a contract holds for a declared field fits the type of the field. -/
def Contract.Fits (c : Contract) (types : Declarations) (contract : Value) : Prop :=
  ∀ s ∈ c.sections, ∀ f ∈ s.fields, ∀ v,
    (contract.member? s.part.name).bind (·.member? f.key) = some v → f.Fits types v

variable {types : Declarations}

/-! ### One field -/

theorem Agrees.isOk_decode {base : BaseType} {check : Check String} (h : Agrees base check) {v : Value}
    (hholds : (check.map (NamedType.ofShape types)).Holds v) :
    (base.shape.decode types v).isOk = true ↔ check.Fits types v := by
  cases h with
  | primitive p =>
      cases p with
      | text =>
          obtain ⟨s, rfl⟩ := hholds
          simp [BaseType.shape, Primitive.shape, Shape.decode, decodeText, Primitive.check, Check.Fits]
      | float =>
          obtain ⟨n, rfl⟩ | ⟨x, rfl⟩ := hholds <;>
            simp [BaseType.shape, Primitive.shape, Shape.decode, decodeFloat, Primitive.check,
              Check.Fits]
      | integer =>
          obtain ⟨n, rfl⟩ := hholds
          simp only [BaseType.shape, Primitive.shape, Shape.decode, decodeInteger, Primitive.check,
            Check.Fits]
          split
          · next hn => simp [hn]
          · next hn => simp [hn]
      | boolean =>
          obtain ⟨b, rfl⟩ := hholds
          simp [BaseType.shape, Primitive.shape, Shape.decode, decodeBoolean, Primitive.check,
            Check.Fits]
      | any => simp [BaseType.shape, Primitive.shape, Shape.decode, Primitive.check, Check.Fits]
  | enum name =>
      have haccepts : (Shape.decode types (.named name) v).isOk = true := hholds
      simp [BaseType.shape, haccepts, Check.Fits]
  | nested name =>
      cases hholds with
      | object haccepts =>
          have hdecode : (Shape.decode types (.named name) (.obj _)).isOk = true := haccepts
          simp [BaseType.shape, hdecode, Check.Fits]
      | array _ => exact Iff.rfl

theorem WrappedType.isOk_decode {w : WrappedType} {v : Value} (hv : v.isNull = false) :
    (w.shape.decode types v).isOk = true
      ↔ if w.array then ∃ items, v = .arr items ∧ ∀ x ∈ items, (w.base.shape.decode types x).isOk = true
        else (w.base.shape.decode types v).isOk = true := by
  have hnull : v ≠ .null := by
    rw [← Bool.not_eq_true, Value.isNull_iff] at hv
    exact hv
  have hinner : (w.shape.decode types v).isOk = true
      ↔ ((if w.array then Shape.list w.base.shape else w.base.shape).decode types v).isOk = true := by
    rw [shape]
    cases w.optional with
    | false => simp
    | true => simp [isOk_decode_optional, hnull]
  rw [hinner]
  cases w.array with
  | false => simp
  | true => simp [isOk_decode_list]

theorem SectionField.fits_null {f : SectionField} : f.Fits types .null := by
  intro x hx
  cases harray : f.type.array with
  | true => simp [harray, Value.items] at hx
  | false =>
      simp only [harray, Bool.false_eq_true, if_false, List.mem_singleton] at hx
      subst hx
      cases f.rule.check <;> trivial

theorem SectionField.isOk_decode {f : SectionField} (hf : f.Coherent) {given : Option Value}
    (hholds : (f.rule.map (NamedType.ofShape types)).Holds given) :
    (given.elim f.shape.missing (f.shape.shape.decode types)).isOk = true
      ↔ ∀ v, given = some v → f.Fits types v := by
  have hrule := hf.rule
  have hrequired : f.rule.required = !f.type.optional := by rw [hrule]
  have harray : f.rule.array = f.type.array := by rw [hrule]
  cases given with
  | none =>
      have hmissing : f.rule.required = false := FieldRule.holds_none.1 hholds
      have hoptional : f.type.optional = true := by simpa [hrequired] using hmissing
      simp [SectionField.shape, FieldShape.missing, WrappedType.shape, hoptional]
  | some v =>
      simp only [Option.elim_some, Option.some.injEq, forall_eq']
      cases hnull : v.isNull with
      | true =>
          obtain rfl := Value.isNull_iff.1 hnull
          have hmissing : f.rule.required = false := FieldRule.holds_null.1 hholds
          have hoptional : f.type.optional = true := by simpa [hrequired] using hmissing
          simp [SectionField.shape, WrappedType.shape, hoptional, isOk_decode_optional, fits_null]
      | false =>
          have hgiven : if f.type.array then ∃ items, v = .arr items
              ∧ ∀ x ∈ items, (f.rule.check.map (NamedType.ofShape types)).Holds x
              else (f.rule.check.map (NamedType.ofShape types)).Holds v := by
            rw [← harray]
            exact (FieldRule.holds_some hnull).1 hholds
          rw [SectionField.shape, WrappedType.isOk_decode hnull, Fits]
          cases hwrap : f.type.array with
          | false =>
              simp only [hwrap, Bool.false_eq_true, if_false, List.mem_singleton, forall_eq]
                at hgiven ⊢
              exact hf.check.isOk_decode hgiven
          | true =>
              simp only [hwrap, if_true] at hgiven ⊢
              obtain ⟨items, rfl, hitems⟩ := hgiven
              simp only [Value.arr.injEq, exists_eq_left', Value.items]
              exact forall₂_congr fun x hx => hf.check.isOk_decode (hitems x hx)

/-! ### Sections and the request -/

theorem SectionType.isOk_decode {c : Contract} {s : SectionType} (hs : s.Coherent) {t : Table Value}
    (hholds : ∀ f ∈ s.fields, (f.rule.map (NamedType.ofShape types)).Holds (t.get? f.key)) :
    (decodeRecord types (c.sectionRecord s) (.obj t.entries)).isOk = true
      ↔ ∀ f ∈ s.fields, ∀ v, t.get? f.key = some v → f.Fits types v := by
  have hkeys : ((c.sectionRecord s).fields.map (·.key)).Nodup := by
    have hsame : (c.sectionRecord s).fields.map (·.key) = s.fields.map (·.key) := by
      rw [Contract.sectionRecord, List.map_map]
      rfl
    rw [hsame]
    exact hs.keys
  rw [isOk_decodeRecord rfl hkeys, Contract.sectionRecord, List.forall_mem_map]
  refine forall₂_congr fun f hf => ?_
  exact SectionField.isOk_decode (hs.fields f hf) (hholds f hf)

namespace Contract

theorem typeName_eq {c : Contract} {s : SectionType} :
    c.typeName s = c.identifier ++ ("_" ++ s.part.typeName) := by
  rw [← String.append_assoc]
  rfl

theorem typeName_ne_requestName {c : Contract} (hfull : c.isMinimal = false) (s : SectionType) :
    c.typeName s ≠ c.requestName := by
  rw [typeName_eq, requestName, hfull, if_neg Bool.false_ne_true]
  change c.identifier ++ ("_" ++ s.part.typeName) ≠ c.identifier ++ "_Req"
  rw [Ne, String.append_right_inj]
  cases s.part <;> decide

theorem nodup_typeNames {c : Contract} (hc : c.Coherent) : (c.sections.map c.typeName).Nodup := by
  have hsame : c.sections.map c.typeName
      = (c.sections.map (·.part)).map fun part => c.identifier ++ ("_" ++ part.typeName) := by
    rw [List.map_map]
    exact List.map_congr_left fun s _ => typeName_eq
  rw [hsame]
  refine hc.parts.map ?_
  intro a b h
  have hname := (String.append_right_inj _).1 ((String.append_right_inj _).1 h)
  revert hname
  cases a <;> cases b <;> decide

theorem lookup_requestName {c : Contract} (hfull : c.isMinimal = false) :
    (c.declarations types).lookup c.requestName = some (.record c.requestRecord) := by
  rw [declarations, hfull, if_neg Bool.false_ne_true, lookup_cons_ite, if_pos rfl]

theorem lookup_typeName {c : Contract} (hfull : c.isMinimal = false) (hc : c.Coherent)
    {s : SectionType} (hs : s ∈ c.sections) :
    (c.declarations types).lookup (c.typeName s)
      = some (.foreign (decodeRecord types (c.sectionRecord s))) := by
  rw [declarations, hfull, if_neg Bool.false_ne_true, lookup_cons_ite,
    if_neg (typeName_ne_requestName hfull s)]
  refine lookup_of_mem ?_ (List.mem_map.2 ⟨s, hs, rfl⟩)
  rw [List.map_map]
  exact nodup_typeNames hc

/-- Of an object that holds for every section one that satisfies the rules, the request type asks only
that it fits. -/
theorem isOk_request {c : Contract} (hfull : c.isMinimal = false) (hc : c.Coherent) {t : Table Value}
    (hsections : ∀ s ∈ c.sections, ∃ u : Table Value, t.get? s.part.name = some (.obj u.entries)
      ∧ ∀ f ∈ s.fields, (f.rule.map (NamedType.ofShape types)).Holds (u.get? f.key)) :
    (Shape.decode (c.declarations types) (.named c.requestName) (.obj t.entries)).isOk = true
      ↔ c.Fits types (.obj t.entries) := by
  have hkeys : (c.requestRecord.fields.map (·.key)).Nodup := by
    have hsame : c.requestRecord.fields.map (·.key)
        = (c.sections.map (·.part)).map Section.name := by
      rw [requestRecord, List.map_map, List.map_map]
      rfl
    rw [hsame]
    exact hc.parts.map Section.name_injective
  rw [Shape.decode, lookup_requestName hfull]
  change (decodeRecord _ c.requestRecord (.obj t.entries)).isOk = true ↔ _
  rw [isOk_decodeRecord rfl hkeys, requestRecord, List.forall_mem_map]
  refine forall₂_congr fun s hs => ?_
  obtain ⟨u, hu, hholds⟩ := hsections s hs
  have hmember : (Value.obj t.entries).member? s.part.name = some (.obj u.entries) := hu
  rw [hu, hmember, Option.elim_some, Shape.decode, lookup_typeName hfull hc hs]
  exact SectionType.isOk_decode (hc.sections s hs) hholds

/-- The rules of a section over the types that `types` declares. -/
def sectionChecks (types : Declarations) (s : SectionType) : SectionRules NamedType :=
  ⟨s.part, s.fields.map fun f => f.rule.map (NamedType.ofShape types)⟩

theorem checks_eq {c : Contract} : c.checks types = c.sections.map (sectionChecks types) := by
  rw [checks, rules, List.map_map]
  refine List.map_congr_left fun s _ => ?_
  rw [Function.comp_apply, SectionRules.map, List.map_map]
  rfl

theorem exists_section_of_valid {c : Contract} (hc : c.Coherent) {req : Request}
    (hvalid : ∀ r ∈ c.checks types, r.Holds req) {s : SectionType} (hs : s ∈ c.sections) :
    ∃ u : Table Value,
      (gathered .empty (c.checks types) req).get? s.part.name = some (.obj u.entries)
        ∧ ∀ f ∈ s.fields, (f.rule.map (NamedType.ofShape types)).Holds (u.get? f.key) := by
  have hparts : ((c.checks types).map (·.part)).Nodup := by
    rw [checks_eq, List.map_map]
    exact hc.parts
  have hmem : sectionChecks types s ∈ c.checks types := by
    rw [checks_eq]
    exact List.mem_map_of_mem hs
  refine ⟨(sectionChecks types s).decode req, get?_gathered hparts hmem, ?_⟩
  intro f hf
  have hrule := hvalid _ hmem _ (List.mem_map_of_mem hf)
  have hkey : f.rule.key = f.key := by rw [((hc.sections s hs).fields f hf).rule]
  exact hkey ▸ hrule

/-- Reading is the last step: a valid request is refused exactly where its contract is not read. -/
theorem read_of_valid {c : Contract} (hfull : c.isMinimal = false) {business : Value → Outcome}
    {req : Request} {v : Value} (hvalid : decodeAndValidate (c.checks types) req = .ok v) :
    (c.operation types business).read req
      = (Shape.decode (c.declarations types) (.named c.requestName) v).mapError .unreadable := by
  simp only [Operation.read, operation, hfull, Bool.false_eq_true, if_false, hvalid]
  rfl

/-- A contract that passed the emitted rules is read as the emitted request type exactly when it holds
no integer beyond 64 bits and no array for a nested object that the type itself would not take; else the
request is refused after it was found valid. -/
theorem read_iff_fits_of_valid {lookups : Lookups} {config : Config} {e : Endpoint} {c : Contract}
    (hmode : config.mode = .full) (hbuild : Contract.build? lookups config e = .ok c)
    {types : Declarations} {business : Value → Outcome} {req : Request} {v : Value}
    (hvalid : decodeAndValidate (c.checks types) req = .ok v) :
    ((∃ w, (c.operation types business).read req = .ok w) ↔ c.Fits types v)
      ∧ ((∃ err, (c.operation types business).read req = .error (.unreadable err))
        ↔ ¬ c.Fits types v) := by
  have hfull := isMinimal_of_build? hmode hbuild
  have hc := coherent_of_build? hmode hbuild
  have hdecode : (Shape.decode (c.declarations types) (.named c.requestName) v).isOk = true
      ↔ c.Fits types v := by
    obtain ⟨hholds, rfl⟩ := decodeAndValidate_eq_ok.1 hvalid
    exact isOk_request hfull hc fun s hs => exists_section_of_valid hc hholds hs
  rw [← hdecode, read_of_valid hfull hvalid]
  cases Shape.decode (c.declarations types) (.named c.requestName) v with
  | error err => simp [Except.mapError]
  | ok w => simp [Except.mapError]

end Contract

section Sample

open Sample UserApi

def newUser (profile : Value) : Request where
  path := "/user"
  body := some (.obj [("name", .str "ada"), ("profile", profile), ("role", .str "admin")])

/-- Whether a request that the emitted rules accept is one of the emitted type. -/
def readsNewUser (req : Request) : Except Fault (Except Violation Bool) :=
  (Contract.build? lookups {} postUser).map fun c =>
    (decodeAndValidate (c.checks UserApi.types) req).map fun v =>
      (Shape.decode (c.declarations UserApi.types) (.named c.requestName) v).isOk

theorem valid_of_readsNewUser {req : Request} {reads : Bool} (h : readsNewUser req = .ok (.ok reads)) :
    ∃ c v, Contract.build? lookups {} postUser = .ok c
      ∧ decodeAndValidate (c.checks UserApi.types) req = .ok v
      ∧ ((c.operation UserApi.types addUser).read req).isOk = reads := by
  obtain ⟨c, hbuild, h⟩ := map_eq_ok.1 h
  obtain ⟨v, hvalid, h⟩ := map_eq_ok.1 h
  refine ⟨c, v, hbuild, hvalid, ?_⟩
  have hfull := Contract.isMinimal_of_build? rfl hbuild
  rw [Contract.read_of_valid hfull hvalid, ← h]
  cases Shape.decode (c.declarations UserApi.types) (.named c.requestName) v <;> rfl

/-- A profile sent as an object fits. -/
theorem new_user_fits : ∃ c v, Contract.build? lookups {} postUser = .ok c
    ∧ decodeAndValidate (c.checks UserApi.types) (newUser (.obj [("bio", .str "a")])) = .ok v
    ∧ c.Fits UserApi.types v := by
  have hrun : readsNewUser (newUser (.obj [("bio", .str "a")])) = .ok (.ok true) := by cbv
  obtain ⟨c, v, hbuild, hvalid, hread⟩ := valid_of_readsNewUser hrun
  refine ⟨c, v, hbuild, hvalid, ?_⟩
  exact (Contract.read_iff_fits_of_valid rfl hbuild hvalid).1.1 (isOk_iff.1 hread)

/-- A profile sent in a list is valid, and still no request of the emitted type. -/
theorem listed_profile_valid_unreadable : ∃ c v, Contract.build? lookups {} postUser = .ok c
    ∧ decodeAndValidate (c.checks UserApi.types) (newUser (.arr [.obj [("bio", .str "a")]])) = .ok v
    ∧ ¬ ∃ w, (c.operation UserApi.types addUser).read (newUser (.arr [.obj [("bio", .str "a")]]))
      = .ok w := by
  have hrun : readsNewUser (newUser (.arr [.obj [("bio", .str "a")]])) = .ok (.ok false) := by cbv
  obtain ⟨c, v, hbuild, hvalid, hread⟩ := valid_of_readsNewUser hrun
  refine ⟨c, v, hbuild, hvalid, ?_⟩
  rw [← isOk_iff, hread]
  decide

end Sample

end Compile

end ApiContracts

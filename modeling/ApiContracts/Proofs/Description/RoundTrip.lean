import ApiContracts.Description.Source
import ApiContracts.Proofs.Json.Compact
import ApiContracts.Proofs.Table
import Mathlib.Data.List.Permutation

/-!
# Descriptions read back

A description that is written out from endpoints reads as those endpoints. How the fields of a record are
ordered in the text does not matter, so `Written` leaves the order open: it covers the order of the
declaration as well as the increasing order of `toJson`. A section that is not declared has no member at all,
and one that is declared without fields is written as an empty list; both come back as they were.
-/

namespace ApiContracts

open Json

/-! ### Records as mappings -/

namespace Node

section Records

variable {names : FieldNames} {members declared : List (String × Value)}

/-- A mapping whose keys are names of fields, none of them twice, has those fields. -/
theorem fieldsOfEntries_ofJsonMembers (hown : ∀ m ∈ members, fieldOf? names (.str m.1) = some (some m.1))
    (hnodup : (members.map (·.1)).Nodup) :
    fieldsOfEntries names (ofJsonMembers members) = .ok (members.map fun m => (m.1, ofJson m.2)) := by
  induction members with
  | nil => rfl
  | cons m members ih =>
      rw [List.forall_mem_cons] at hown
      rw [List.map_cons, List.nodup_cons] at hnodup
      have hnew : (members.map fun m => (m.1, ofJson m.2)).lookup m.1 = none := by
        rw [lookup_map_value, List.lookup_eq_none_iff.2, Option.map_none]
        intro e he
        rw [bne_iff_ne]
        intro heq
        exact hnodup.1 (heq ▸ List.mem_map_of_mem he)
      rw [ofJsonMembers, fieldsOfEntries, hown.1]
      simp only [ih hown.2 hnodup.2, bind, Except.bind, hnew]
      rfl

theorem exists_fields? (names : FieldNames) (hperm : members.Perm declared) (hnodup : (declared.map (·.1)).Nodup)
    (hown : ∀ m ∈ declared, fieldOf? names (.str m.1) = some (some m.1)) :
    ∃ fields, (ofJson (.obj members)).fields? names = some fields
      ∧ ∀ name, fields.lookup name = (declared.lookup name).map ofJson := by
  have hkeys : (members.map (·.1)).Nodup := (hperm.map _).nodup_iff.2 hnodup
  refine ⟨members.map fun m => (m.1, ofJson m.2), ?_, ?_⟩
  · rw [ofJson, fields?, fieldsOfEntries_ofJsonMembers (fun m hm => hown m (hperm.mem_iff.1 hm)) hkeys]
    rfl
  · intro name
    rw [lookup_map_value, lookup_of_perm hperm hnodup]

end Records

theorem mapM_ofJsonItems {α : Type} {Writes : α → Value → Prop} {read : Node → Option α} {xs : List α}
    {items : List Value} (h : List.Forall₂ Writes xs items)
    (hread : ∀ x v, Writes x v → read (ofJson v) = some x) : (ofJsonItems items).mapM read = some xs := by
  induction h with
  | nil => rfl
  | cons hx _ ih => rw [ofJsonItems, List.mapM_cons, hread _ _ hx, ih]; rfl

end Node

open Node

/-! ### Types -/

/-- How a reference is written: its kind as a tag, and its name. -/
inductive TypeReference.Written (t : TypeReference) : Value → Prop where
  | fields {members : List (String × Value)}
      (h : members.Perm [("type", .str t.kindName), (nameField t.kindName, .str t.typeName)]) : Written t (.obj members)

theorem TypeReference.ofNode?_of_written {t : TypeReference} {v : Value} (h : t.Written v) :
    TypeReference.ofNode? (Node.ofJson v) = some t := by
  obtain ⟨hperm⟩ := h
  obtain rfl | rfl := List.perm_pair.1 hperm <;> cases t <;> rfl

/-! ### Fields and results -/

inductive Field.Written (f : Field) : Value → Prop where
  | fields {type : Value} {members : List (String × Value)} (htype : f.type.Written type)
      (h : members.Perm
        [("key", .str f.key), ("type", type), ("required", .bool f.required), ("array", .bool f.array)]) :
      Written f (.obj members)

theorem Field.ofNode?_of_written {f : Field} {v : Value} (h : f.Written v) : Field.ofNode? (Node.ofJson v) = some f := by
  obtain ⟨htype, hperm⟩ := h
  obtain ⟨fields, hfields, hlookup⟩ := exists_fields? [["key"], ["type"], ["required"], ["array"]] hperm
    (by simp) (by simp [fieldOf?])
  rw [Field.ofNode?, hfields]
  simp [hlookup, fieldOr, lookup_cons_ite, Node.ofJson, text?, flag?, TypeReference.ofNode?_of_written htype]

inductive ReturnType.Written (r : ReturnType) : Value → Prop where
  | fields {type : Value} {members : List (String × Value)} (htype : r.type.Written type)
      (h : members.Perm [("type", type), ("required", .bool r.required), ("array", .bool r.array)]) :
      Written r (.obj members)

theorem ReturnType.ofNode?_of_written {r : ReturnType} {v : Value} (h : r.Written v) :
    ReturnType.ofNode? (Node.ofJson v) = some r := by
  obtain ⟨htype, hperm⟩ := h
  obtain ⟨fields, hfields, hlookup⟩ := exists_fields? [["type"], ["required"], ["array"]] hperm
    (by simp) (by simp [fieldOf?])
  rw [ReturnType.ofNode?, hfields]
  simp [hlookup, fieldOr, lookup_cons_ite, Node.ofJson, flag?, TypeReference.ofNode?_of_written htype]

/-! ### Sections -/

/-- A section that is not declared has no value; one that is declared lists its fields, even if there are none. -/
inductive SectionWritten : Option (List Field) → Option Value → Prop where
  | absent : SectionWritten none none
  | present {fields : List Field} {values : List Value} (h : List.Forall₂ Field.Written fields values) :
      SectionWritten (some fields) (some (.arr values))

def sectionMember (name : String) (value : Option Value) : List (String × Value) := (value.map fun v => (name, v)).toList

theorem lookup_sectionMember {name key : String} {value : Option Value} :
    (sectionMember name value).lookup key = if key = name then value else none := by
  cases value with
  | none => simp [sectionMember]
  | some v => rw [sectionMember, Option.map_some, Option.toList_some, lookup_cons_ite, List.lookup_nil]

theorem sublist_sectionMember (name : String) (value : Option Value) :
    ((sectionMember name value).map (·.1)).Sublist [name] := by
  cases value with
  | none => exact List.nil_sublist _
  | some v => exact List.Sublist.refl _

theorem fieldOr_section {fields : List (String × Node)} {name : String} {declared : Option (List Field)}
    {value : Option Value} (h : SectionWritten declared value) (hlookup : fields.lookup name = value.map Node.ofJson) :
    fieldOr fields name none Node.section? = some declared := by
  cases h with
  | absent =>
      rw [fieldOr, hlookup]
      rfl
  | present hfields =>
      rw [fieldOr, hlookup]
      simp only [Option.map_some, Node.ofJson, Node.section?, items?, Option.bind_eq_bind, Option.bind_some]
      rw [mapM_ofJsonItems hfields fun _ _ => Field.ofNode?_of_written]
      rfl

/-! ### Endpoints -/

def endpointNames : List String := ["method", "path", "body", "paths", "queries", "headers", "return"]

def endpointMembers (e : Endpoint) (body paths queries headers : Option Value) (returns : Value) :
    List (String × Value) :=
  [("method", .str e.verb.name), ("path", .str e.path)] ++ sectionMember "body" body ++ sectionMember "paths" paths
    ++ sectionMember "queries" queries ++ sectionMember "headers" headers ++ [("return", returns)]

inductive Endpoint.Written (e : Endpoint) : Value → Prop where
  | fields {body paths queries headers : Option Value} {returns : Value} {members : List (String × Value)}
      (hbody : SectionWritten e.body body) (hpaths : SectionWritten e.paths paths)
      (hqueries : SectionWritten e.queries queries) (hheaders : SectionWritten e.headers headers)
      (hreturns : e.returns.Written returns)
      (h : members.Perm (endpointMembers e body paths queries headers returns)) : Written e (.obj members)

section Endpoints

variable {e : Endpoint} {body paths queries headers : Option Value} {returns : Value}

theorem sublist_endpointMembers :
    ((endpointMembers e body paths queries headers returns).map (·.1)).Sublist endpointNames := by
  simp only [endpointMembers, List.map_append]
  have hhead := List.Sublist.refl ["method", "path"]
  exact ((((hhead.append (sublist_sectionMember "body" body)).append (sublist_sectionMember "paths" paths)).append
    (sublist_sectionMember "queries" queries)).append (sublist_sectionMember "headers" headers)).append
      (List.Sublist.refl ["return"])

theorem lookup_endpointMembers {name : String} :
    (endpointMembers e body paths queries headers returns).lookup name
      = if name = "method" then some (.str e.verb.name) else if name = "path" then some (.str e.path)
        else if name = "body" then body else if name = "paths" then paths else if name = "queries" then queries
        else if name = "headers" then headers else if name = "return" then some returns else none := by
  simp only [endpointMembers, List.lookup_append, lookup_sectionMember, lookup_cons_ite, List.lookup_nil]
  split_ifs <;> simp_all

theorem Verb.ofDescription?_name (v : Verb) : Verb.ofDescription? v.name = some v := by
  cases v <;> decide +kernel

theorem Endpoint.ofNode?_of_written {v : Value} (h : e.Written v) : Endpoint.ofNode? (Node.ofJson v) = some e := by
  cases h with
  | @fields body paths queries headers returns members hbody hpaths hqueries hheaders hreturns hperm =>
      have hown : ∀ name ∈ endpointNames,
          fieldOf? (endpointNames.map fun name => [name]) (.str name) = some (some name) := by decide +kernel
      obtain ⟨fields, hfields, hlookup⟩ := exists_fields? (endpointNames.map fun name => [name]) hperm
        (sublist_endpointMembers.nodup (by decide)) fun m hm => hown m.1 (sublist_endpointMembers.subset (List.mem_map_of_mem hm))
      simp only [lookup_endpointMembers] at hlookup
      have hmethod : fields.lookup "method" = some (.str e.verb.name) := hlookup "method"
      have hpath : fields.lookup "path" = some (.str e.path) := hlookup "path"
      have hreturn : fields.lookup "return" = some (Node.ofJson returns) := hlookup "return"
      change (Node.ofJson _).fields? [["method"], ["path"], ["body"], ["paths"], ["queries"], ["headers"], ["return"]]
        = some fields at hfields
      rw [Endpoint.ofNode?, hfields]
      simp only [Option.bind_eq_bind, Option.bind_some, hmethod, hpath, hreturn]
      rw [fieldOr_section hbody (hlookup "body"), fieldOr_section hpaths (hlookup "paths"),
        fieldOr_section hqueries (hlookup "queries"), fieldOr_section hheaders (hlookup "headers")]
      simp only [Verb.ofNode?, Verb.ofDescription?_name, text?, ReturnType.ofNode?_of_written hreturns,
        Option.bind_some]
      rfl

end Endpoints

/-! ### Texts without numbers -/

section Numberless

variable {n : Nat} {v : Value}

theorem numberless_of_perm {members declared : List (String × Value)} (hperm : members.Perm declared)
    (h : ∀ m ∈ declared, m.2.Numberless n) : (Value.obj members).Numberless (n + 1) := by
  exact .obj fun m hm => h m (hperm.mem_iff.1 hm)

theorem TypeReference.Written.numberless {t : TypeReference} (h : t.Written v) : v.Numberless (n + 1) := by
  obtain ⟨hperm⟩ := h
  apply numberless_of_perm hperm
  simp only [List.forall_mem_cons]
  exact ⟨.str, .str, List.forall_mem_nil _⟩

theorem Field.Written.numberless {f : Field} (h : f.Written v) : v.Numberless (n + 2) := by
  obtain ⟨htype, hperm⟩ := h
  apply numberless_of_perm hperm
  simp only [List.forall_mem_cons]
  exact ⟨.str, htype.numberless, .bool, .bool, List.forall_mem_nil _⟩

theorem ReturnType.Written.numberless {r : ReturnType} (h : r.Written v) : v.Numberless (n + 2) := by
  obtain ⟨htype, hperm⟩ := h
  apply numberless_of_perm hperm
  simp only [List.forall_mem_cons]
  exact ⟨htype.numberless, .bool, .bool, List.forall_mem_nil _⟩

theorem numberless_of_forall₂ {α : Type} {Writes : α → Value → Prop} {xs : List α} {values : List Value}
    (h : List.Forall₂ Writes xs values) (hvalue : ∀ x v, Writes x v → v.Numberless n) :
    ∀ v ∈ values, v.Numberless n := by
  induction h with
  | nil => exact fun v hv => absurd hv List.not_mem_nil
  | cons hx _ ih => exact List.forall_mem_cons.2 ⟨hvalue _ _ hx, ih⟩

theorem SectionWritten.numberless {declared : Option (List Field)} {value : Option Value}
    (h : SectionWritten declared value) {name : String} : ∀ m ∈ sectionMember name value, m.2.Numberless (n + 3) := by
  intro m hm
  cases h with
  | absent => exact absurd hm List.not_mem_nil
  | present hfields =>
      obtain rfl := List.mem_singleton.1 hm
      exact .arr (numberless_of_forall₂ hfields fun _ _ h => h.numberless)

theorem Endpoint.Written.numberless {e : Endpoint} (h : e.Written v) : v.Numberless (n + 4) := by
  obtain ⟨hbody, hpaths, hqueries, hheaders, hreturns, hperm⟩ := h
  apply numberless_of_perm hperm
  simp only [endpointMembers, List.forall_mem_append, List.forall_mem_cons]
  exact ⟨⟨⟨⟨⟨⟨.str, .str, List.forall_mem_nil _⟩, hbody.numberless⟩, hpaths.numberless⟩, hqueries.numberless⟩,
    hheaders.numberless⟩, hreturns.numberless, List.forall_mem_nil _⟩

end Numberless

/-! ### Endpoints written in the order of their keys -/

theorem TypeReference.written_toJson (t : TypeReference) : t.Written t.toJson := by
  have hnodup : ([("type", Value.str t.kindName), (nameField t.kindName, .str t.typeName)].map (·.1)).Nodup := by
    cases t <;> simp [nameField, kindName]
  exact .fields (perm_sortEntries hnodup)

theorem Field.written_toJson (f : Field) : f.Written f.toJson := by
  exact .fields f.type.written_toJson (perm_sortEntries (by simp))

theorem ReturnType.written_toJson (r : ReturnType) : r.Written r.toJson := by
  exact .fields r.type.written_toJson (perm_sortEntries (by simp))

def sectionValue (declared : Option (List Field)) : Option Value :=
  declared.map fun fields => .arr (fields.map Field.toJson)

theorem sectionWritten_sectionValue (declared : Option (List Field)) :
    SectionWritten declared (sectionValue declared) := by
  cases declared with
  | none => exact .absent
  | some fields =>
      refine .present ?_
      rw [List.forall₂_map_right_iff, List.forall₂_same]
      exact fun f _ => f.written_toJson

theorem sectionJson_eq (name : String) (declared : Option (List Field)) :
    Endpoint.sectionJson name declared = sectionMember name (sectionValue declared) := by
  cases declared <;> rfl

theorem Endpoint.written_toJson (e : Endpoint) : e.Written e.toJson := by
  refine .fields (sectionWritten_sectionValue e.body) (sectionWritten_sectionValue e.paths)
    (sectionWritten_sectionValue e.queries) (sectionWritten_sectionValue e.headers) e.returns.written_toJson ?_
  rw [sectionJson_eq, sectionJson_eq, sectionJson_eq, sectionJson_eq]
  exact perm_sortEntries (sublist_endpointMembers.nodup (by decide))

/-! ### Whole descriptions -/

namespace Description

variable {es : List Endpoint} {vs : List Value}

theorem endpointsOfList?_of_written (h : List.Forall₂ Endpoint.Written es vs) :
    endpointsOfList? (Node.ofJson (.arr vs)) = some es := by
  rw [Node.ofJson]
  exact mapM_ofJsonItems h fun _ _ => Endpoint.ofNode?_of_written

theorem endpointsOf?_list (h : List.Forall₂ Endpoint.Written es vs) :
    endpointsOf? (Node.ofJson (.arr vs)) = some es := by
  rw [endpointsOf?, endpointsOfList?_of_written h]
  rfl

theorem endpointsOf?_wrapper (h : List.Forall₂ Endpoint.Written es vs) {key : String} (hkey : key ∈ ["api", "endpoints"]) :
    endpointsOf? (Node.ofJson (.obj [(key, .arr vs)])) = some es := by
  have hfield : fieldOf? [["api", "endpoints"]] (.str key) = some (some "api") := by
    simp only [List.mem_cons, List.not_mem_nil, or_false] at hkey
    obtain rfl | rfl := hkey <;> decide +kernel
  have hentries : fieldsOfEntries [["api", "endpoints"]] [(.str key, Node.ofJson (.arr vs))]
      = .ok [("api", Node.ofJson (.arr vs))] := by
    rw [fieldsOfEntries, hfield]
    rfl
  show endpointsOfWrapper? (.map [(.str key, Node.ofJson (.arr vs))]) = some es
  rw [endpointsOfWrapper?, hentries]
  exact endpointsOfList?_of_written h

theorem read_compact {path : String} {v : Value} {n : Nat} (hjson : Format.ofPath path = .json) (hv : v.Numberless n)
    (hn : n < maxDepth) (h : endpointsOf? (Node.ofJson v) = some es) : read path v.compact = .ok es := by
  obtain ⟨c, hvalue, hend⟩ := readValue_compact hv hn
  rw [read, hjson]
  show readJson v.compact = .ok es
  rw [readJson, hvalue]
  simp only [Except.mapError, bind, Except.bind, endpointsOf, h, Option.elim_some, hend]
  rfl

theorem numberless_list (h : List.Forall₂ Endpoint.Written es vs) : (Value.arr vs).Numberless 5 := by
  exact .arr (numberless_of_forall₂ h fun _ _ h => h.numberless)

/-- What the endpoints write of themselves is a description of them. -/
theorem read_map_toJson {path : String} (hjson : Format.ofPath path = .json) (es : List Endpoint) :
    read path (Value.arr (es.map Endpoint.toJson)).compact = .ok es := by
  have hwritten : List.Forall₂ Endpoint.Written es (es.map Endpoint.toJson) := by
    rw [List.forall₂_map_right_iff, List.forall₂_same]
    exact fun e _ => e.written_toJson
  exact read_compact hjson (numberless_list hwritten) (by decide) (endpointsOf?_list hwritten)

/-- Endpoints that are written out are read back, as a bare list and as one under either key of a wrapper. -/
theorem read_written {path : String} (hjson : Format.ofPath path = .json)
    (h : List.Forall₂ Endpoint.Written es vs) :
    read path (Value.arr vs).compact = .ok es
      ∧ ∀ key ∈ ["api", "endpoints"], read path (Value.obj [(key, .arr vs)]).compact = .ok es := by
  refine ⟨read_compact hjson (numberless_list h) (by decide) (endpointsOf?_list h), ?_⟩
  intro key hkey
  have hwrapper : (Value.obj [(key, .arr vs)]).Numberless 6 := by
    refine .obj ?_
    intro m hm
    rw [List.mem_singleton.1 hm]
    exact numberless_list h
  exact read_compact hjson hwrapper (by decide) (endpointsOf?_wrapper h hkey)

def saveNote : Endpoint where
  verb := .put
  path := "/notes/:id"
  body := some []
  paths := some [{ key := "id", type := .native "integer" }]
  returns := { type := .table "Note", required := false }

def findNotes : Endpoint where
  verb := .get
  path := "/notes"
  queries := some [{ key := "say \"so\"\n", type := .enum "Wörter", required := false, array := true }]
  returns := { type := .schema "Hit", array := true }

def saveNoteValue : Value :=
  .obj
    [("method", .str "put"), ("path", .str "/notes/:id"), ("body", .arr []),
      ("paths", .arr
        [.obj
          [("key", .str "id"), ("type", .obj [("type", .str "native"), ("native_type", .str "integer")]),
            ("required", .bool true), ("array", .bool false)]]),
      ("return", .obj
        [("type", .obj [("type", .str "table"), ("table_name", .str "Note")]), ("required", .bool false),
          ("array", .bool false)])]

def findNotesValue : Value :=
  .obj
    [("path", .str "/notes"), ("method", .str "get"),
      ("return", .obj
        [("array", .bool true), ("required", .bool true),
          ("type", .obj [("schema_name", .str "Hit"), ("type", .str "schema")])]),
      ("queries", .arr
        [.obj
          [("type", .obj [("enum_name", .str "Wörter"), ("type", .str "enum")]), ("key", .str "say \"so\"\n"),
            ("array", .bool true), ("required", .bool false)]])]

theorem written_saveNote : saveNote.Written saveNoteValue := by
  refine .fields (.present .nil) (.present (.cons ?_ .nil)) .absent .absent ?_ (.refl _)
  · exact .fields (.fields (.refl _)) (.refl _)
  · exact .fields (.fields (.refl _)) (.refl _)

theorem written_findNotes : findNotes.Written findNotesValue := by
  have hswap : ∀ a b c d : String × Value, [b, a, d, c].Perm [a, b, c, d] := fun a b c d =>
    (List.Perm.swap a b [d, c]).trans (((List.Perm.swap c d []).cons b).cons a)
  refine .fields .absent .absent (.present (.cons ?_ .nil)) .absent ?_ (hswap _ _ _ _)
  · exact .fields (.fields (.swap _ _ _)) (hswap _ _ _ _)
  · exact .fields (.fields (.swap _ _ _)) (List.reverse_perm [_, _, _])

theorem read_notes :
    Format.ofPath "api.json" = .json
      ∧ List.Forall₂ Endpoint.Written [saveNote, findNotes] [saveNoteValue, findNotesValue]
      ∧ read "api.json" (Value.arr [saveNoteValue, findNotesValue]).compact = .ok [saveNote, findNotes]
      ∧ read "api.json" (Value.obj [("endpoints", .arr [saveNoteValue, findNotesValue])]).compact
        = .ok [saveNote, findNotes] := by
  have hjson : Format.ofPath "api.json" = .json := by decide +kernel
  have hwritten : List.Forall₂ Endpoint.Written [saveNote, findNotes] [saveNoteValue, findNotesValue] :=
    .cons written_saveNote (.cons written_findNotes .nil)
  have hread := read_written hjson hwritten
  exact ⟨hjson, hwritten, hread.1, hread.2 "endpoints" (by decide)⟩

end Description

end ApiContracts

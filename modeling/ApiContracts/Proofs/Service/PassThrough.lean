import ApiContracts.Proofs.Service.RawParams
import ApiContracts.Service.Operation

/-!
# Requests handed over untouched

An operation that passes its requests through has no rules to refuse one by, and the type that it reads them as
takes every body and every table. What arrives are the raw parameters of the request: all texts of a query key,
the last of a path parameter and of a header. They go through a value on the way, and none is lost there, because
the value of raw parameters is that of no others.
-/

namespace ApiContracts

open Json

namespace RawParams

theorem toValue_eq (p : RawParams) :
    p.toValue = .obj [("body", p.body), ("headers", .obj p.headers.entries), ("paths", .obj p.paths.entries),
      ("query", .obj p.query.entries)] := by
  simp only [toValue, Value.object, sortEntries, List.foldl_cons, List.foldl_nil, insertEntry, String.reduceLT,
    String.reduceEq, if_false, if_true]

theorem toValue_inj {p q : RawParams} (h : p.toValue = q.toValue) : p = q := by
  simp only [toValue_eq, Value.obj.injEq, List.cons.injEq, Prod.mk.injEq, true_and, and_true] at h
  obtain ⟨hbody, hheaders, hpaths, hquery⟩ := h
  cases p
  cases q
  rw [mk.injEq]
  exact ⟨hbody, Table.eq_of_entries hpaths, Table.eq_of_entries hquery, Table.eq_of_entries hheaders⟩

theorem decode_toValue (types : Declarations) (p : RawParams) :
    Shape.decode (declaration :: types) (.named declaration.1) p.toValue = .ok p.toValue := by
  obtain ⟨r, hr⟩ : ∃ r, declaration.2 = .record r := ⟨_, rfl⟩
  have hlookup : (declaration :: types).lookup declaration.1 = some (.record r) := by
    rw [← hr, List.lookup_cons_self]
  let members := [("body", p.body), ("headers", .obj p.headers.entries), ("paths", .obj p.paths.entries),
    ("query", .obj p.query.entries)]
  have hvalue : p.toValue = .obj members := toValue_eq p
  have hmembers : decodeMembers (declaration :: types) r members = .ok members := by
    cases hr
    simp [members, decodeMembers, Shape.decode, decodeObject, bind, Except.bind, pure, Except.pure]
  have hfields : assembleFields members r.fields
      = .ok [("body", p.body), ("paths", .obj p.paths.entries), ("query", .obj p.query.entries),
        ("headers", .obj p.headers.entries)] := by
    cases hr
    rfl
  calc
    _ = decodeRecord (declaration :: types) r (.obj members) := by
      rw [hvalue, Shape.decode]
      simp only [hlookup]
    _ = .ok p.toValue := by
      rw [decodeRecord, hmembers]
      change (assembleFields members r.fields >>= fun fields => pure (Value.object fields)) = _
      rw [hfields]
      rfl

end RawParams

/-- A request that is handed over untouched is never refused, and no value of its query is lost. A query key has
nothing, its text, or the list of all its texts in order; a path parameter and a header have their last text.
Read as raw parameters, whatever rules stand beside them, these come out as they are and as no others. -/
theorem untouched_request_kept (req : Request) :
    let raw := RawParams.ofRequest req
    (∀ key, raw.query.get? key = match req.queryValues key with
        | [] => none
        | [text] => some (.str text)
        | texts => some (.arr (texts.map .str)))
      ∧ (∀ name, raw.paths.get? name = (valuesOf name req.pathParams).getLast?.map .str)
      ∧ (∀ name, raw.headers.get? name = (valuesOf name req.headers).getLast?.map .str)
      ∧ raw.body = req.body.getD .null
      ∧ (∀ types sections business,
          Operation.read ⟨.passThrough, sections, Shape.decode (RawParams.declaration :: types)
            (.named RawParams.declaration.1), business⟩ req = .ok raw.toValue)
      ∧ ∀ raw' : RawParams, raw'.toValue = raw.toValue ↔ raw' = raw := by
  intro raw
  refine ⟨?_, fun name => RawParams.get?_lastOf, fun name => RawParams.get?_lastOf, rfl, ?_, ?_⟩
  · intro key
    rw [RawParams.get?_query]
    match req.queryValues key with
    | [] => rfl
    | [text] => rfl
    | first :: second :: rest => rfl
  · intro types sections business
    show ((Shape.decode (RawParams.declaration :: types) (.named RawParams.declaration.1) raw.toValue).mapError
      Refusal.unreadable) = _
    rw [RawParams.decode_toValue]
    rfl
  · intro raw'
    exact ⟨RawParams.toValue_inj, fun h => h ▸ rfl⟩

end ApiContracts

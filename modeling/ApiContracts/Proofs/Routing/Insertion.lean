import ApiContracts.Proofs.Routing.Listing
import ApiContracts.Proofs.Routing.Precedence

/-!
# What an insertion changes

An insertion may build, extend or overwrite nodes that other routes share, and every later search goes through
them. What a search answers is decided by rank, though (`Outranks`), and the rank of two routes is settled once
both are in: a parameter that comes later only joins the end of its node. So whatever is inserted behind some
routes, a request is answered by one of the new routes or as it was before.

An insertion reports whether it took the place of a route. The report is told by the texts alone, two paths
having one place when their segments are written alike or name the same parameters (`Segment.Alike`).
-/

namespace ApiContracts.Routing

open Http

namespace Segment

/-- Whether two texts stand for one segment: they are the same, or name the same parameter. -/
def Alike (a b : String) : Prop := a = b ∨ ∃ name, Names a name ∧ Names b name

theorem ofText_eq_iff {a b : String} : ofText a = ofText b ↔ Alike a b := by
  constructor
  · intro h
    cases ha : ofText a with
    | static text =>
        have hb : ofText b = .static text := by rw [← h, ha]
        exact Or.inl ((ofText_eq_static ha).trans (ofText_eq_static hb).symm)
    | param name =>
        have hb : ofText b = .param name := by rw [← h, ha]
        exact Or.inr ⟨name, ofText_eq_param.1 ha, ofText_eq_param.1 hb⟩
  · intro h
    obtain heq | ⟨name, ha, hb⟩ := h
    · rw [heq]
    · rw [ofText_eq_param.2 ha, ofText_eq_param.2 hb]

end Segment

theorem pattern_eq_iff {p q : String} :
    pattern p = pattern q ↔ List.Forall₂ Segment.Alike (segments p) (segments q) := by
  have halike : Segment.Alike = fun a b => Segment.ofText a = Segment.ofText b := by
    funext a b
    exact propext Segment.ofText_eq_iff.symm
  rw [halike, pattern, pattern, ← List.forall₂_eq_eq_eq, List.forall₂_map_left_iff,
    List.forall₂_map_right_iff]

namespace Router

/-! ### Answers behind further insertions -/

theorem get?_append (rs more : List Route) (m : Method) (ps : List Segment) :
    (ofRoutes (rs ++ more)).tree.get? m ps
      = ((ofRoutes more).tree.get? m ps).or ((ofRoutes rs).tree.get? m ps) := by
  rw [get?_ofRoutes, get?_ofRoutes, get?_ofRoutes, List.reverse_append, List.find?_append]

theorem idxOf_le_idxOf_append (names more : List String) (name : String) :
    names.idxOf name ≤ (names ++ more).idxOf name := by
  by_cases hmem : name ∈ names
  · rw [List.idxOf_append_of_mem hmem]
  · rw [List.idxOf_append_of_notMem hmem]
    have hend : names.idxOf name ≤ names.length := List.idxOf_le_length
    omega

theorem Preferred.append {rs : List Route} {shared : List Segment} {s t : Segment}
    (h : Preferred rs shared s t) (more : List Route) : Preferred (rs ++ more) shared s t := by
  cases h with
  | static => exact .static
  | @param a b hfirst =>
      have hlength : (paramNames rs shared).idxOf b ≤ (paramNames rs shared).length := List.idxOf_le_length
      have ha : a ∈ paramNames rs shared := List.idxOf_lt_length_iff.1 (by omega)
      have hb := idxOf_le_idxOf_append (paramNames rs shared) (paramNames more shared) b
      apply Preferred.param
      rw [paramNames, List.filterMap_append, ← paramNames, ← paramNames, List.idxOf_append_of_mem ha]
      omega

theorem Outranks.append {rs : List Route} {r q : Route} (h : Outranks rs r q) (more : List Route) :
    Outranks (rs ++ more) r q := by
  obtain ⟨shared, s, t, hpart, hpreferred⟩ := h
  exact ⟨shared, s, t, hpart, hpreferred.append more⟩

theorem Outranks.congr_right {rs : List Route} {r q q' : Route} (h : Outranks rs r q)
    (hpattern : q.pattern = q'.pattern) : Outranks rs r q' := by
  obtain ⟨shared, s, t, hpart, hpreferred⟩ := h
  exact ⟨shared, s, t, hpattern ▸ hpart, hpreferred⟩

/-- What answers behind further insertions and is none of them answered before. -/
theorem route_of_route_append {rs more : List Route} {m : Method} {path : String} {found : Match}
    (h : (ofRoutes (rs ++ more)).route m path = some found) (hold : found.route ∉ more) :
    (ofRoutes rs).route m path = some found := by
  obtain ⟨hmatches, hget, hparams, -⟩ := route_eq_some h
  have hstored : (ofRoutes rs).tree.get? m found.route.pattern = some found.route := by
    rw [get?_append, Option.or_eq_some_iff] at hget
    rcases hget with hnew | ⟨-, hget⟩
    · exact absurd (get?_ofRoutes_eq_some hnew).2.2.mem hold
    · exact hget
  obtain ⟨hmethod, -, hlatest⟩ := get?_ofRoutes_eq_some hstored
  obtain ⟨before, hbefore⟩ :=
    Option.isSome_iff_exists.1 (isSome_route_iff.2 ⟨found.route, hlatest.mem, hmethod, hmatches⟩)
  obtain ⟨hmatches', hget', hparams', -⟩ := route_eq_some hbefore
  have hroute : before.route = found.route := by
    by_contra hne
    have habove : Outranks (rs ++ more) before.route found.route :=
      (outranks_of_route hbefore hstored hmatches (Ne.symm hne)).append more
    have hplace : ((ofRoutes (rs ++ more)).tree.get? m before.route.pattern).isSome := by
      rw [get?_append, Option.isSome_or, hget']
      simp
    obtain ⟨q, hq⟩ := Option.isSome_iff_exists.1 hplace
    obtain ⟨-, hpattern, -⟩ := get?_ofRoutes_eq_some hq
    have hqmatches : q.Matches path := by
      rw [matches_iff, hpattern]
      exact matches_iff.1 hmatches'
    have hqne : q ≠ found.route := by
      rintro rfl
      rw [hpattern, hget', Option.some.injEq] at hstored
      exact hne hstored
    have hbelow : Outranks (rs ++ more) found.route q :=
      outranks_of_route h (hpattern.symm ▸ hq) hqmatches hqne
    exact habove.asymm (hbelow.congr_right hpattern)
  rw [hbefore, Option.some.injEq, Match.mk.injEq]
  exact ⟨hroute, by rw [hparams', hparams, hroute]⟩

/-- Routes that a request does not match make no difference to it, however many are inserted. -/
theorem route_append_of_not_matches {rs more : List Route} {m : Method} {path : String}
    (h : ∀ r ∈ more, ¬ (r.method = m ∧ r.Matches path)) :
    (ofRoutes (rs ++ more)).route m path = (ofRoutes rs).route m path := by
  cases hafter : (ofRoutes (rs ++ more)).route m path with
  | none =>
      symm
      rw [← Option.not_isSome_iff_eq_none, isSome_route_iff] at hafter ⊢
      rintro ⟨r, hr, hmatches⟩
      exact hafter ⟨r, List.mem_append_left more hr, hmatches⟩
  | some found =>
      obtain ⟨hmatches, hget, -, -⟩ := route_eq_some hafter
      obtain ⟨hmethod, -, -⟩ := get?_ofRoutes_eq_some hget
      exact (route_of_route_append hafter fun hmem => h _ hmem ⟨hmethod, hmatches⟩).symm

/-- A new route answers what it matches if nothing did, or it takes the place of what did or outranks it. -/
theorem route_insert_eq_iff {rs : List Route} {r : Route} {path : String} {found : Match}
    (hmatches : r.Matches path) (h : (ofRoutes (rs ++ [r])).route r.method path = some found) :
    found.route = r ↔ ∀ old, (ofRoutes rs).route r.method path = some old →
      old.route.pattern = r.pattern ∨ Outranks (rs ++ [r]) r old.route := by
  have hget : (ofRoutes (rs ++ [r])).tree.get? r.method r.pattern = some r := by
    rw [ofRoutes_concat, insert, Tree.get?_insert, if_pos ⟨rfl, rfl⟩]
  constructor
  · intro hnew old hold
    obtain ⟨hmatches', hget', -, -⟩ := route_eq_some hold
    by_cases hpattern : old.route.pattern = r.pattern
    · exact Or.inl hpattern
    · right
      have hstored : (ofRoutes (rs ++ [r])).tree.get? r.method old.route.pattern = some old.route := by
        rw [ofRoutes_concat, insert, Tree.get?_insert, if_neg fun hsame => hpattern hsame.2, hget']
      have hne : old.route ≠ found.route := by
        intro heq
        exact hpattern (by rw [heq, hnew])
      have habove := outranks_of_route h hstored hmatches' hne
      rwa [hnew] at habove
  · intro hwins
    by_contra hne
    have hold := route_of_route_append h fun hmem => hne (List.mem_singleton.1 hmem)
    rcases hwins found hold with hpattern | habove
    · obtain ⟨-, hstored, -, -⟩ := route_eq_some h
      rw [hpattern, hget, Option.some.injEq] at hstored
      exact hne hstored.symm
    · exact habove.asymm (outranks_of_route h hget hmatches (Ne.symm hne))

/-- An insertion leaves the answer to a request that the new route does not match. A request that it does
match has an answer then, from the new route or as before: the new route if nothing answered, or if it takes
the place of what did or outranks it. -/
theorem insertion_keeps_other_answers (rs : List Route) (r : Route) (m : Method) (path : String) :
    (¬ (r.method = m ∧ r.Matches path) →
        ((ofRoutes rs).insert r).route m path = (ofRoutes rs).route m path)
      ∧ (r.method = m → r.Matches path → ∃ found, ((ofRoutes rs).insert r).route m path = some found
          ∧ (found.route = r ∧ found.params = bindings r.pattern (segments path)
              ∨ (ofRoutes rs).route m path = some found)
          ∧ (found.route = r ↔ ∀ old, (ofRoutes rs).route m path = some old →
              old.route.pattern = r.pattern ∨ Outranks (rs ++ [r]) r old.route)) := by
  rw [← ofRoutes_concat]
  constructor
  · intro hunmatched
    apply route_append_of_not_matches
    intro q hq
    rwa [List.mem_singleton.1 hq]
  · rintro rfl hmatches
    obtain ⟨found, hfound⟩ :=
      Option.isSome_iff_exists.1 (isSome_route_iff.2 ⟨r, List.mem_concat_self, rfl, hmatches⟩)
    refine ⟨found, hfound, ?_, route_insert_eq_iff hmatches hfound⟩
    by_cases hnew : found.route = r
    · obtain ⟨-, -, hparams, -⟩ := route_eq_some hfound
      exact Or.inl ⟨hnew, by rw [hparams, hnew]⟩
    · exact Or.inr (route_of_route_append hfound fun hmem => hnew (List.mem_singleton.1 hmem))

def shelves : List Route := [⟨.get, "/shelves/:id/books"⟩, ⟨.options, "/shelves/{name}"⟩]

/-- Routes that pass the same nodes: one that does not match, one that matches and stays behind, and one that
takes over. -/
theorem insertion_keeps_shelves :
    ((ofRoutes shelves).insert ⟨.get, "/shelves/{id}/notes"⟩).route .get "/shelves/7/books"
        = (ofRoutes shelves).route .get "/shelves/7/books"
      ∧ (∃ found, ((ofRoutes shelves).insert ⟨.get, "/shelves/:name/books"⟩).route .get "/shelves/7/books"
            = some found
          ∧ found.route ≠ ⟨.get, "/shelves/:name/books"⟩
          ∧ (ofRoutes shelves).route .get "/shelves/7/books" = some found)
      ∧ ∃ found, ((ofRoutes shelves).insert ⟨.get, "/shelves/{id}//books"⟩).route .get "/shelves/7/books"
            = some found
          ∧ found.route = ⟨.get, "/shelves/{id}//books"⟩ ∧ found.params = [("id", "7")] := by
  have hanswer : ((ofRoutes shelves).route .get "/shelves/7/books").map answer
      = some ("GET /shelves/:id/books", [("id", "7")]) := by decide +kernel
  obtain ⟨old, hold, heq⟩ := Option.map_eq_some_iff.1 hanswer
  have holdRoute : old.route = ⟨.get, "/shelves/:id/books"⟩ := by
    obtain ⟨-, hget, -, -⟩ := route_eq_some hold
    exact Route.eq_of_endpoint (get?_ofRoutes_eq_some hget).1 (congrArg Prod.fst heq)
  refine ⟨?_, ?_, ?_⟩
  · refine (insertion_keeps_other_answers shelves _ _ _).1 ?_
    rw [matches_iff]
    decide +kernel
  · obtain ⟨found, hfound, hwhence, -⟩ :=
      (insertion_keeps_other_answers shelves ⟨.get, "/shelves/:name/books"⟩ .get "/shelves/7/books").2 rfl
        (matches_iff.2 (by decide +kernel))
    have hkey : (((ofRoutes shelves).insert ⟨.get, "/shelves/:name/books"⟩).route .get "/shelves/7/books").map
        (·.route.path) = some "/shelves/:id/books" := by decide +kernel
    rw [hfound, Option.map_some, Option.some.injEq] at hkey
    have hne : found.route ≠ ⟨.get, "/shelves/:name/books"⟩ := by
      intro hnew
      rw [hnew] at hkey
      revert hkey
      decide
    exact ⟨found, hfound, hne, hwhence.resolve_left fun hnew => hne hnew.1⟩
  · obtain ⟨found, hfound, hwhence, hwins⟩ :=
      (insertion_keeps_other_answers shelves ⟨.get, "/shelves/{id}//books"⟩ .get "/shelves/7/books").2 rfl
        (matches_iff.2 (by decide +kernel))
    have hnew : found.route = ⟨.get, "/shelves/{id}//books"⟩ := by
      refine hwins.2 fun old' hold' => Or.inl ?_
      rw [hold, Option.some.injEq] at hold'
      rw [← hold', holdRoute]
      decide +kernel
    refine ⟨found, hfound, hnew, ?_⟩
    obtain ⟨-, -, hparams, -⟩ := route_eq_some ((ofRoutes_concat shelves _).symm ▸ hfound)
    rw [hparams, hnew]
    decide +kernel

/-! ### Reports -/

/-- Inserts routes in order. Each insertion reports whether it took the place of a route. -/
def insertAll (t : Router) : List Route → List Bool × Router
  | [] => ([], t)
  | r :: rest =>
    let (reports, t') := insertAll (t.insert r) rest
    (t.holds r :: reports, t')

theorem insertAll_snd (before rs : List Route) :
    (insertAll (ofRoutes before) rs).2 = ofRoutes (before ++ rs) := by
  induction rs generalizing before with
  | nil => rw [List.append_nil, insertAll]
  | cons r rest ih =>
      have hrest := ih (before ++ [r])
      rwa [ofRoutes_concat, List.append_assoc, List.singleton_append] at hrest

theorem length_reports (t : Router) (rs : List Route) : (insertAll t rs).1.length = rs.length := by
  induction rs generalizing t with
  | nil => rfl
  | cons r rest ih => exact congrArg (· + 1) (ih (t.insert r))

theorem getElem?_reports (before rs : List Route) (i : Nat) :
    (insertAll (ofRoutes before) rs).1[i]?
      = rs[i]?.map fun r => (ofRoutes (before ++ rs.take i)).holds r := by
  induction rs generalizing before i with
  | nil => rfl
  | cons r rest ih =>
      cases i with
      | zero => simp [insertAll]
      | succ i =>
          have hrest := ih (before ++ [r]) i
          rwa [ofRoutes_concat, List.append_assoc, List.singleton_append] at hrest

theorem holds_ofRoutes_iff {rs : List Route} {r : Route} :
    (ofRoutes rs).holds r = true
      ↔ ∃ q ∈ rs, q.method = r.method ∧ List.Forall₂ Segment.Alike (segments q.path) (segments r.path) := by
  rw [holds, isSome_get?_ofRoutes]
  simp only [Route.pattern, pattern_eq_iff]

/-- An insertion reports a replacement exactly when a route of its method and of the same segments was inserted
before it, and the list has the keys of all routes, each where it was inserted last. -/
theorem insertions_reported_and_listed (rs : List Route) :
    let done := insertAll {} rs
    done.1.length = rs.length
      ∧ (∀ i : Nat, done.1[i]? = some true ↔ ∃ r, rs[i]? = some r ∧ ∃ j < i, ∃ q, rs[j]? = some q
          ∧ q.method = r.method ∧ List.Forall₂ Segment.Alike (segments q.path) (segments r.path))
      ∧ done.2 = ofRoutes rs
      ∧ done.2.endpoints = (rs.map Route.endpoint).dedup
      ∧ done.2.endpoints.Nodup := by
  intro done
  have hrouter : done.2 = ofRoutes rs := insertAll_snd [] rs
  have hreports (i : Nat) : done.1[i]? = rs[i]?.map fun r => (ofRoutes (rs.take i)).holds r :=
    getElem?_reports [] rs i
  have hlisted : done.2.endpoints = (rs.map Route.endpoint).dedup := by
    rw [hrouter, endpoints_ofRoutes]
  have hearlier (i : Nat) (q : Route) : q ∈ rs.take i ↔ ∃ j < i, rs[j]? = some q := by
    rw [List.mem_iff_getElem?]
    apply exists_congr
    intro j
    rw [List.getElem?_take]
    by_cases hj : j < i <;> simp [hj]
  refine ⟨length_reports _ rs, ?_, hrouter, hlisted, hlisted ▸ List.nodup_dedup _⟩
  intro i
  rw [hreports, Option.map_eq_some_iff]
  apply exists_congr
  intro r
  rw [holds_ofRoutes_iff]
  apply and_congr_right
  intro _
  constructor
  · intro h
    obtain ⟨q, hq, hplace⟩ := h
    obtain ⟨j, hj, hq⟩ := (hearlier i q).1 hq
    exact ⟨j, hj, q, hq, hplace⟩
  · intro h
    obtain ⟨j, hj, q, hq, hplace⟩ := h
    exact ⟨q, (hearlier i q).2 ⟨j, hj, hq⟩, hplace⟩

/-- The third and the last of these take the place of the first. The key that is inserted twice is listed once,
behind the others. -/
example :
    let done :=
      insertAll {} [⟨.get, "/a/:x"⟩, ⟨.options, "/a/:x"⟩, ⟨.get, "/a/{x}/"⟩, ⟨.get, "/a/:y"⟩, ⟨.get, "/a/:x"⟩]
    done.1 = [false, false, true, false, true]
      ∧ done.2.endpoints = ["OPTIONS /a/:x", "GET /a/{x}/", "GET /a/:y", "GET /a/:x"] := by
  decide +kernel

end Router

end ApiContracts.Routing

import ApiContracts.Proofs.Routing.Tree
import ApiContracts.Routing.Router
import Mathlib.Data.List.Induction

/-!
# Where a router leads a request

The tree of a router that was built by insertions stores, for a method and a pattern, the last route
inserted with both. With what a search finds this gives the rule of routing: a request is routed
exactly when an inserted route of its method matches its path, it is routed to the last route of that
pattern, and the parameters are those of the pattern and nothing else.
-/

namespace ApiContracts.Routing

open Http

namespace Router

theorem ofRoutes_concat (rs : List Route) (r : Route) :
    ofRoutes (rs ++ [r]) = (ofRoutes rs).insert r := by
  simp [ofRoutes]

theorem distinct_ofRoutes (rs : List Route) : (ofRoutes rs).tree.Distinct := by
  induction rs using List.reverseRecOn with
  | nil => exact Tree.distinct_empty
  | append_singleton rs r ih =>
      rw [ofRoutes_concat]
      exact ih.insert

theorem get?_ofRoutes (rs : List Route) (m : Method) (ps : List Segment) :
    (ofRoutes rs).tree.get? m ps
      = rs.reverse.find? fun r => decide (r.method = m ∧ r.pattern = ps) := by
  induction rs using List.reverseRecOn with
  | nil => exact Tree.get?_empty
  | append_singleton rs r ih =>
      rw [ofRoutes_concat, insert, Tree.get?_insert, ih, List.reverse_append, List.reverse_singleton,
        List.singleton_append, List.find?_cons]
      by_cases h : r.method = m ∧ r.pattern = ps
      · simp [h]
      · have h' : ¬ (m = r.method ∧ ps = r.pattern) := fun heq => h ⟨heq.1.symm, heq.2.symm⟩
        simp [h, h']

/-- Whether a route was inserted and no later one has its method and its pattern. -/
def Latest (rs : List Route) (r : Route) : Prop :=
  ∃ before after, rs = before ++ r :: after
    ∧ ∀ r' ∈ after, ¬ (r'.method = r.method ∧ r'.pattern = r.pattern)

theorem Latest.mem {rs : List Route} {r : Route} (h : Latest rs r) : r ∈ rs := by
  obtain ⟨before, after, rfl, _⟩ := h
  simp

theorem get?_ofRoutes_eq_some {rs : List Route} {m : Method} {ps : List Segment} {r : Route}
    (h : (ofRoutes rs).tree.get? m ps = some r) : r.method = m ∧ r.pattern = ps ∧ Latest rs r := by
  rw [get?_ofRoutes, List.find?_eq_some_iff_append] at h
  obtain ⟨hr, later, earlier, hrs, hlater⟩ := h
  obtain ⟨rfl, rfl⟩ := of_decide_eq_true hr
  refine ⟨rfl, rfl, earlier.reverse, later.reverse, ?_, ?_⟩
  · rw [← List.reverse_reverse rs, hrs]
    simp
  · intro r' hr'
    simpa only [Bool.not_eq_true', decide_eq_false_iff_not] using hlater r' (List.mem_reverse.1 hr')

theorem isSome_get?_ofRoutes {rs : List Route} {m : Method} {ps : List Segment} :
    ((ofRoutes rs).tree.get? m ps).isSome ↔ ∃ r ∈ rs, r.method = m ∧ r.pattern = ps := by
  simp [get?_ofRoutes, List.find?_isSome]

theorem isSome_route_iff {rs : List Route} {m : Method} {path : String} :
    ((ofRoutes rs).route m path).isSome ↔ ∃ r ∈ rs, r.method = m ∧ r.Matches path := by
  rw [route, Option.isSome_map]
  constructor
  · intro h
    obtain ⟨⟨r, bound⟩, hsearch⟩ := Option.isSome_iff_exists.1 h
    obtain ⟨ps, hfits, hget, _, _⟩ := Tree.search_eq_some (distinct_ofRoutes rs) hsearch
    obtain ⟨hmethod, rfl, hlatest⟩ := get?_ofRoutes_eq_some hget
    exact ⟨r, hlatest.mem, hmethod, matches_iff.2 hfits⟩
  · rintro ⟨r, hr, hmethod, hmatches⟩
    exact Tree.isSome_search (matches_iff.1 hmatches)
      (isSome_get?_ofRoutes.2 ⟨r, hr, hmethod, rfl⟩)

/-- The match of a request is stored at its own pattern, the first one that fits. -/
theorem route_eq_some {rs : List Route} {m : Method} {path : String} {found : Match}
    (h : (ofRoutes rs).route m path = some found) :
    found.route.Matches path ∧ (ofRoutes rs).tree.get? m found.route.pattern = some found.route
      ∧ found.params = bindings found.route.pattern (segments path)
      ∧ (ofRoutes rs).tree.First m (segments path) found.route.pattern := by
  obtain ⟨⟨r, bound⟩, hsearch, rfl⟩ := Option.map_eq_some_iff.1 h
  obtain ⟨ps, hfits, hget, hbound, hfirst⟩ := Tree.search_eq_some (distinct_ofRoutes rs) hsearch
  obtain ⟨_, rfl, _⟩ := get?_ofRoutes_eq_some hget
  exact ⟨matches_iff.2 hfits, hget, hbound, hfirst⟩

/-- A request is routed exactly when a route of its method matches, and then to the last route of
one pattern that matches, with the parameters of that pattern. -/
theorem routed_iff_matches_and_latest (rs : List Route) (m : Method) (path : String) :
    (((ofRoutes rs).route m path).isSome ↔ ∃ r ∈ rs, r.method = m ∧ r.Matches path)
      ∧ ∀ found, (ofRoutes rs).route m path = some found →
          found.route.method = m ∧ found.route.Matches path ∧ Latest rs found.route
            ∧ found.params = bindings found.route.pattern (segments path) := by
  refine ⟨isSome_route_iff, ?_⟩
  intro found h
  obtain ⟨hmatches, hget, hparams, _⟩ := route_eq_some h
  obtain ⟨hmethod, _, hlatest⟩ := get?_ofRoutes_eq_some hget
  exact ⟨hmethod, hmatches, hlatest, hparams⟩

def crossing : List Route :=
  [⟨.get, "/users/:id/posts"⟩, ⟨.get, "/users/{user}/comments"⟩, ⟨.get, "/users/:user/comments/"⟩]

theorem routed_after_going_back :
    ∃ found, (ofRoutes crossing).route .get "/users/a%20b/comments" = some found
      ∧ found.route.path = "/users/:user/comments/" ∧ found.params = [("user", "a b")]
      ∧ found.route.method = .get ∧ found.route.Matches "/users/a%20b/comments"
      ∧ Latest crossing found.route
      ∧ found.params = bindings found.route.pattern (segments "/users/a%20b/comments") := by
  have hmap : ((ofRoutes crossing).route .get "/users/a%20b/comments").map
      (fun found => (found.route.path, found.params))
        = some ("/users/:user/comments/", [("user", "a b")]) := by decide +kernel
  obtain ⟨found, hfound, heq⟩ := Option.map_eq_some_iff.1 hmap
  simp only [Prod.mk.injEq] at heq
  exact ⟨found, hfound, heq.1, heq.2,
    (routed_iff_matches_and_latest crossing .get "/users/a%20b/comments").2 found hfound⟩

end Router

end ApiContracts.Routing

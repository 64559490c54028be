import ApiContracts.Proofs.Routing.Router

/-!
# When the order of registration counts

Two things of a router depend on the order in which its routes were inserted: which of several routes
with one pattern is stored, and which of several parameters of a node a search tries first. Neither
depends on more than that, so a request has one answer in all orders exactly when there is one route
that could answer it in any. Such a route is `Uncontested`: it matches, and no other that matches has
a static segment where it has its first different one.

That an uncontested route can answer is shown by the order that puts it first. Its parameters then
stay in front at every node it passes (`Foremost`), and only a route that precedes it comes before it.
-/

namespace ApiContracts.Routing

open Http

theorem Precedes.irrefl {ps : List Segment} : ¬ Precedes ps ps := by
  intro h
  induction ps with
  | nil => cases h
  | cons p ps ih =>
      cases h with
      | under h => exact ih h

namespace Tree

theorem Before.not_precedes {t : Tree} {ps qs : List Segment} (h : t.Before ps qs) :
    ¬ Precedes qs ps := by
  intro hprecedes
  induction h with
  | static => cases hprecedes
  | params hne _ =>
      cases hprecedes with
      | under _ => exact hne rfl
  | under _ _ ih =>
      cases hprecedes with
      | under hprecedes => exact ih hprecedes

/-- Whether the parameters of a pattern are the first ones of the nodes it passes. -/
inductive Foremost : Tree → List Segment → Prop
  | nil {t : Tree} : Foremost t []
  | static {t sub : Tree} {text : String} {ps : List Segment}
      (hchild : t.child (.static text) = some sub) (hsub : Foremost sub ps) :
      Foremost t (.static text :: ps)
  | param {t sub : Tree} {name : String} {ps : List Segment}
      (hhead : (t.params.map (·.1)).head? = some name) (hchild : t.child (.param name) = some sub)
      (hsub : Foremost sub ps) : Foremost t (.param name :: ps)

theorem foremost_insert_empty {r : Route} {ps : List Segment} :
    (empty.insert r ps).Foremost ps := by
  induction ps with
  | nil => exact .nil
  | cons p ps ih =>
      have hchild : (empty.insert r (p :: ps)).child p = some (empty.insert r ps) := by
        rw [child_insert_cons, if_pos rfl]
        cases p <;> rfl
      cases p with
      | static text => exact .static hchild ih
      | param name => exact .param rfl hchild ih

theorem head?_params_insert {r : Route} {qs : List Segment} {t : Tree} {name : String}
    (h : (t.params.map (·.1)).head? = some name) :
    ((t.insert r qs).params.map (·.1)).head? = some name := by
  obtain ⟨rs, ss, params⟩ := t
  cases qs with
  | nil => exact h
  | cons q qs =>
      cases q with
      | static text => exact h
      | param other =>
          simp only [insert, Tree.params, keys_alter] at h ⊢
          split
          · exact h
          · rw [List.head?_append, h, Option.some_or]

theorem child_insert_of_some {r : Route} {qs : List Segment} {t sub : Tree} {p : Segment}
    (hchild : t.child p = some sub) : (t.insert r qs).child p = some sub
      ∨ ∃ qs', (t.insert r qs).child p = some (sub.insert r qs') := by
  cases qs with
  | nil => exact Or.inl (by rw [child_insert_nil, hchild])
  | cons q qs =>
      rw [child_insert_cons]
      by_cases hp : p = q
      · subst hp
        exact Or.inr ⟨qs, by rw [if_pos rfl, hchild, Option.getD_some]⟩
      · exact Or.inl (by rw [if_neg hp, hchild])

theorem Foremost.insert {r : Route} {ps qs : List Segment} {t : Tree} (h : t.Foremost ps) :
    (t.insert r qs).Foremost ps := by
  induction h generalizing qs with
  | nil => exact .nil
  | static hchild hsub ih =>
      rcases child_insert_of_some hchild with hchild | ⟨qs', hchild⟩
      · exact .static hchild hsub
      · exact .static hchild ih
  | param hhead hchild hsub ih =>
      rcases child_insert_of_some hchild with hchild | ⟨qs', hchild⟩
      · exact .param (head?_params_insert hhead) hchild hsub
      · exact .param (head?_params_insert hhead) hchild ih

theorem Foremost.child {p : Segment} {ps : List Segment} {t sub : Tree}
    (h : t.Foremost (p :: ps)) (hchild : t.child p = some sub) : sub.Foremost ps := by
  cases h with
  | static hchild' hsub =>
      rw [hchild, Option.some.injEq] at hchild'
      exact hchild' ▸ hsub
  | param _ hchild' hsub =>
      rw [hchild, Option.some.injEq] at hchild'
      exact hchild' ▸ hsub

theorem not_sublist_of_head? {keys : List String} {a b : String} (hnodup : keys.Nodup)
    (hhead : keys.head? = some b) : ¬ [a, b].Sublist keys := by
  intro horder
  obtain ⟨rest, rfl⟩ := List.head?_eq_some_iff.1 hhead
  have hrest : b ∈ rest := by
    cases horder with
    | cons _ h => exact h.subset (by simp)
    | cons_cons _ h => exact h.subset (by simp)
  exact (List.nodup_cons.1 hnodup).1 hrest

/-- Only what precedes a foremost pattern is tried before it. -/
theorem Foremost.precedes_of_before {ps qs : List Segment} {t : Tree} (h : t.Foremost ps)
    (ht : t.Distinct) (hbefore : t.Before qs ps) : Precedes qs ps := by
  induction hbefore with
  | static => exact .here
  | params _ horder =>
      cases h with
      | param hhead _ _ => exact absurd horder (not_sublist_of_head? ht.nodup_params hhead)
  | under hchild _ ih => exact .under (ih (h.child hchild) (ht.child hchild))

end Tree

namespace Router

/-- The route inserted first stays foremost. -/
theorem foremost_ofRoutes {r : Route} {rs : List Route} :
    (ofRoutes (r :: rs)).tree.Foremost r.pattern := by
  induction rs using List.reverseRecOn with
  | nil => exact Tree.foremost_insert_empty
  | append_singleton rs r' ih =>
      rw [← List.cons_append, ofRoutes_concat]
      exact ih.insert

/-- Whether a route matches a request and no other that does precedes it. -/
def Uncontested (rs : List Route) (m : Method) (path : String) (r : Route) : Prop :=
  r ∈ rs ∧ r.method = m ∧ r.Matches path
    ∧ ∀ q ∈ rs, q.method = m → q.Matches path → ¬ Precedes q.pattern r.pattern

theorem Uncontested.of_perm {rs rs' : List Route} {m : Method} {path : String} {r : Route}
    (hperm : rs'.Perm rs) (h : Uncontested rs' m path r) : Uncontested rs m path r := by
  obtain ⟨hr, hmethod, hmatches, hfirst⟩ := h
  exact ⟨hperm.mem_iff.1 hr, hmethod, hmatches, fun q hq => hfirst q (hperm.mem_iff.2 hq)⟩

theorem uncontested_of_route {rs : List Route} {m : Method} {path : String} {found : Match}
    (h : (ofRoutes rs).route m path = some found) : Uncontested rs m path found.route := by
  obtain ⟨hmatches, hget, _, hfirst⟩ := route_eq_some h
  obtain ⟨hmethod, _, hlatest⟩ := get?_ofRoutes_eq_some hget
  refine ⟨hlatest.mem, hmethod, hmatches, ?_⟩
  intro q hq hqm hqmatches hprecedes
  by_cases heq : q.pattern = found.route.pattern
  · rw [heq] at hprecedes
    exact hprecedes.irrefl
  · have hstored : ((ofRoutes rs).tree.get? m q.pattern).isSome :=
      isSome_get?_ofRoutes.2 ⟨q, hq, hqm, rfl⟩
    exact (hfirst _ (matches_iff.1 hqmatches) hstored heq).not_precedes hprecedes

/-- An uncontested route answers where it is stored and stands foremost. -/
theorem route_of_foremost {rs : List Route} {m : Method} {path : String} {r : Route}
    (h : Uncontested rs m path r) (hget : (ofRoutes rs).tree.get? m r.pattern = some r)
    (hforemost : (ofRoutes rs).tree.Foremost r.pattern) :
    ∃ found, (ofRoutes rs).route m path = some found ∧ found.route = r := by
  obtain ⟨hr, hmethod, hmatches, hunpreceded⟩ := h
  obtain ⟨found, hfound⟩ := Option.isSome_iff_exists.1 (isSome_route_iff.2 ⟨r, hr, hmethod, hmatches⟩)
  refine ⟨found, hfound, ?_⟩
  obtain ⟨hmatches', hget', _, hfirst⟩ := route_eq_some hfound
  by_cases heq : r.pattern = found.route.pattern
  · rw [heq, hget', Option.some.injEq] at hget
    exact hget
  · obtain ⟨hmethod', _, hlatest⟩ := get?_ofRoutes_eq_some hget'
    have hstored : ((ofRoutes rs).tree.get? m r.pattern).isSome := by rw [hget]; rfl
    have hbefore := hfirst _ (matches_iff.1 hmatches) hstored heq
    have hprecedes := hforemost.precedes_of_before (distinct_ofRoutes rs) hbefore
    exact absurd hprecedes (hunpreceded _ hlatest.mem hmethod' hmatches')

/-- Whether two routes are stored at one place of the tree. -/
def shares (r q : Route) : Bool := decide (q.method = r.method ∧ q.pattern = r.pattern)

/-- The routes with one of them behind those it takes the place of and before all others. -/
def putFirst (rs : List Route) (r : Route) : List Route :=
  (rs.erase r).filter (shares r) ++ r :: (rs.erase r).filter (!shares r ·)

theorem putFirst_perm {rs : List Route} {r : Route} (hr : r ∈ rs) : (putFirst rs r).Perm rs := by
  have hparts : ((rs.erase r).filter (shares r) ++ (rs.erase r).filter (!shares r ·)).Perm
      (rs.erase r) := List.filter_append_perm _ _
  exact List.perm_middle.trans ((hparts.cons r).trans (List.perm_cons_erase hr).symm)

theorem get?_putFirst {rs : List Route} {r : Route} :
    (ofRoutes (putFirst rs r)).tree.get? r.method r.pattern = some r := by
  have hself : shares r r = true := by simp [shares]
  have hothers : ((rs.erase r).filter (!shares r ·)).reverse.find? (shares r) = none := by
    rw [List.find?_eq_none]
    intro q hq
    simpa using (List.mem_filter.1 (List.mem_reverse.1 hq)).2
  rw [get?_ofRoutes]
  change (putFirst rs r).reverse.find? (shares r) = some r
  rw [putFirst, List.reverse_append, List.reverse_cons, List.append_assoc, List.find?_append, hothers,
    Option.none_or, List.singleton_append, List.find?_cons_of_pos hself]

theorem foremost_putFirst {rs : List Route} {r : Route} :
    (ofRoutes (putFirst rs r)).tree.Foremost r.pattern := by
  rw [putFirst]
  cases h : (rs.erase r).filter (shares r) with
  | nil => exact foremost_ofRoutes
  | cons q earlier =>
      have hq : q ∈ (rs.erase r).filter (shares r) := by rw [h]; exact List.mem_cons_self
      have hpattern : q.pattern = r.pattern := (of_decide_eq_true (List.mem_filter.1 hq).2).2
      rw [← hpattern, List.cons_append]
      exact foremost_ofRoutes

theorem exists_perm_route {rs : List Route} {m : Method} {path : String} {r : Route}
    (h : Uncontested rs m path r) :
    ∃ rs', rs'.Perm rs ∧ ∃ found, (ofRoutes rs').route m path = some found ∧ found.route = r := by
  have hperm := putFirst_perm h.1
  refine ⟨putFirst rs r, hperm, route_of_foremost (h.of_perm hperm.symm) ?_ foremost_putFirst⟩
  rw [← h.2.1]
  exact get?_putFirst

def answer (found : Match) : String × List (String × String) :=
  (found.route.endpoint, found.params)

/-- All orders of the routes answer a request alike exactly when one route at most is uncontested. -/
theorem answers_perm_iff_uncontested_unique (rs : List Route) (m : Method) (path : String) :
    (∀ rs', rs'.Perm rs →
        ((ofRoutes rs').route m path).map answer = ((ofRoutes rs).route m path).map answer)
      ↔ ∀ r r', Uncontested rs m path r → Uncontested rs m path r' → r = r' := by
  constructor
  · intro hsame r r' hr hr'
    obtain ⟨rs₁, hperm₁, found, hfound, rfl⟩ := exists_perm_route hr
    obtain ⟨rs₂, hperm₂, found', hfound', rfl⟩ := exists_perm_route hr'
    have hanswer := (hsame rs₁ hperm₁).trans (hsame rs₂ hperm₂).symm
    rw [hfound, hfound', Option.map_some, Option.map_some, Option.some.injEq] at hanswer
    exact Route.eq_of_endpoint (hr.2.1.trans hr'.2.1.symm) (congrArg Prod.fst hanswer)
  · intro hunique rs' hperm
    have hiff : ((ofRoutes rs').route m path).isSome ↔ ((ofRoutes rs).route m path).isSome := by
      simp only [isSome_route_iff, hperm.mem_iff]
    cases hfound : (ofRoutes rs').route m path with
    | none =>
        rw [hfound] at hiff
        simp only [Option.isSome_none, Bool.false_eq_true, false_iff,
          Option.not_isSome_iff_eq_none] at hiff
        rw [hiff]
    | some found' =>
        rw [hfound] at hiff
        obtain ⟨found, hfound₀⟩ := Option.isSome_iff_exists.1 (hiff.1 rfl)
        have hroute : found'.route = found.route :=
          hunique _ _ ((uncontested_of_route hfound).of_perm hperm) (uncontested_of_route hfound₀)
        have hparams : found'.params = found.params := by
          rw [(route_eq_some hfound).2.2.1, (route_eq_some hfound₀).2.2.1, hroute]
        rw [hfound₀, Option.map_some, Option.map_some, answer, answer, hroute, hparams]

/-- Routes with keys of their own may answer one request in different ways, by the order in which
they were inserted. -/
theorem answers_depend_on_order :
    ¬ ∀ (rs rs' : List Route) (m : Method) (path : String),
      (rs.map (·.endpoint)).Nodup → rs'.Perm rs →
        ((ofRoutes rs').route m path).map answer = ((ofRoutes rs).route m path).map answer := by
  intro h
  have hperm : [(⟨.get, "/:b"⟩ : Route), ⟨.get, "/:a"⟩].Perm [⟨.get, "/:a"⟩, ⟨.get, "/:b"⟩] :=
    .swap _ _ _
  have hsame := h [⟨.get, "/:a"⟩, ⟨.get, "/:b"⟩] _ .get "/x" (by decide +kernel) hperm
  revert hsame
  decide +kernel

end Router

end ApiContracts.Routing

import ApiContracts.Proofs.Routing.Reachable

/-!
# Which of several routes answers

A search goes back where a branch leads nowhere, so a preferred branch may come to nothing deep in the tree.
Of the routes that are stored and match, though, each two are ranked where their patterns part (`PartAt`): a
static segment is preferred to a parameter, and of two parameters the one whose name was inserted first at
that place, for whatever method (`Preferred`). A request is answered by the one route that outranks all others,
which is a rule without a search in it.
-/

namespace ApiContracts.Routing

open Http

structure PartAt (shared : List Segment) (s t : Segment) (ps qs : List Segment) : Prop where
  ne : s ≠ t
  left : ∃ rest, ps = shared ++ s :: rest
  right : ∃ rest, qs = shared ++ t :: rest

namespace PartAt

variable {shared shared' ps qs : List Segment} {s t s' t' : Segment}

theorem symm (h : PartAt shared s t ps qs) : PartAt shared t s qs ps :=
  ⟨h.ne.symm, h.right, h.left⟩

theorem cons (p : Segment) (h : PartAt shared s t ps qs) : PartAt (p :: shared) s t (p :: ps) (p :: qs) := by
  obtain ⟨hne, ⟨ps', rfl⟩, ⟨qs', rfl⟩⟩ := h
  exact ⟨hne, ⟨ps', rfl⟩, ⟨qs', rfl⟩⟩

theorem shared_eq_nil (h : PartAt [] s t ps qs) (h' : PartAt shared' s' t' ps qs) : shared' = [] := by
  obtain ⟨hne, ⟨ps', rfl⟩, ⟨qs', rfl⟩⟩ := h
  cases shared' with
  | nil => rfl
  | cons p shared' =>
      obtain ⟨_, hps⟩ := h'.left
      obtain ⟨_, hqs⟩ := h'.right
      rw [List.nil_append, List.cons_append, List.cons.injEq] at hps hqs
      exact absurd (hps.1.trans hqs.1.symm) hne

theorem unique (h : PartAt shared s t ps qs) (h' : PartAt shared' s' t' ps qs) :
    shared' = shared ∧ s' = s ∧ t' = t := by
  induction shared generalizing shared' ps qs with
  | nil =>
      obtain rfl := h.shared_eq_nil h'
      obtain ⟨-, ⟨_, rfl⟩, ⟨_, rfl⟩⟩ := h
      obtain ⟨-, ⟨_, hps⟩, ⟨_, hqs⟩⟩ := h'
      rw [List.nil_append, List.nil_append, List.cons.injEq] at hps hqs
      exact ⟨rfl, hps.1.symm, hqs.1.symm⟩
  | cons p shared ih =>
      cases shared' with
      | nil => exact absurd (h'.shared_eq_nil h) (by simp)
      | cons p' shared' =>
          obtain ⟨hne, ⟨ps', rfl⟩, ⟨qs', rfl⟩⟩ := h
          obtain ⟨hne', ⟨_, hps⟩, ⟨_, hqs⟩⟩ := h'
          rw [List.cons_append, List.cons_append, List.cons.injEq] at hps hqs
          obtain ⟨hshared, hs, ht⟩ :=
            ih ⟨hne, ⟨ps', rfl⟩, ⟨qs', rfl⟩⟩ ⟨hne', ⟨_, hps.2⟩, ⟨_, hqs.2⟩⟩
          exact ⟨by rw [hps.1, hshared], hs, ht⟩

end PartAt

theorem Precedes.exists_partAt {ps qs : List Segment} (h : Precedes ps qs) :
    ∃ shared text name, PartAt shared (.static text) (.param name) ps qs := by
  induction h with
  | @here text name ps qs => exact ⟨[], text, name, by simp, ⟨ps, rfl⟩, ⟨qs, rfl⟩⟩
  | under _ ih =>
      obtain ⟨shared, text, name, hpart⟩ := ih
      exact ⟨_, text, name, hpart.cons _⟩

namespace Router

/-- Whether of two different segments behind the same ones the first is preferred: it is static and the other
a parameter, or both are parameters and its name was inserted first at this place. -/
inductive Preferred (rs : List Route) (shared : List Segment) : Segment → Segment → Prop
  | static {text name : String} : Preferred rs shared (.static text) (.param name)
  | param {a b : String} (hfirst : (paramNames rs shared).idxOf a < (paramNames rs shared).idxOf b) :
      Preferred rs shared (.param a) (.param b)

theorem Preferred.asymm {rs : List Route} {shared : List Segment} {s t : Segment}
    (h : Preferred rs shared s t) : ¬ Preferred rs shared t s := by
  intro h'
  cases h with
  | static => cases h'
  | param hfirst =>
      cases h' with
      | param hfirst' => omega

/-- Whether a route is preferred to another where their patterns part. -/
def Outranks (rs : List Route) (r q : Route) : Prop :=
  ∃ shared s t, PartAt shared s t r.pattern q.pattern ∧ Preferred rs shared s t

theorem Outranks.asymm {rs : List Route} {r q : Route} (h : Outranks rs r q) : ¬ Outranks rs q r := by
  intro h'
  obtain ⟨shared, s, t, hpart, hpreferred⟩ := h
  obtain ⟨_, _, _, hpart', hpreferred'⟩ := h'
  obtain ⟨rfl, rfl, rfl⟩ := hpart.symm.unique hpart'
  exact hpreferred.asymm hpreferred'

theorem outranks_of_before {rs : List Route} {r q : Route}
    (h : (ofRoutes rs).tree.Before r.pattern q.pattern) : Outranks rs r q := by
  rcases h.cases_paramsAt with hprecedes | ⟨shared, a, b, ps, qs, hps, hqs, horder⟩
  · obtain ⟨shared, text, name, hpart⟩ := hprecedes.exists_partAt
    exact ⟨shared, _, _, hpart, .static⟩
  · have hfirst := (firstsOf_paramsAt rs shared).order a b horder
    have hne : Segment.param a ≠ .param b := by
      intro heq
      cases heq
      omega
    exact ⟨shared, _, _, ⟨hne, ⟨ps, hps⟩, ⟨qs, hqs⟩⟩, .param hfirst⟩

/-- Of the stored routes that match a request, the one that answers outranks all others. -/
theorem outranks_of_route {rs : List Route} {m : Method} {path : String} {found : Match} {q : Route}
    (h : (ofRoutes rs).route m path = some found) (hstored : (ofRoutes rs).tree.get? m q.pattern = some q)
    (hmatches : q.Matches path) (hne : q ≠ found.route) : Outranks rs found.route q := by
  obtain ⟨-, hget, -, hfirst⟩ := route_eq_some h
  have hpattern : q.pattern ≠ found.route.pattern := by
    intro heq
    rw [heq, hget, Option.some.injEq] at hstored
    exact hne hstored.symm
  apply outranks_of_before
  exact hfirst _ (matches_iff.1 hmatches) (by rw [hstored]; rfl) hpattern

/-- A request is answered by a route exactly when the route is stored for its method, it matches, and it
outranks every other one of which this is true. The parameters are those of its pattern. -/
theorem route_eq_some_iff_outranks (rs : List Route) (m : Method) (path : String) (found : Match) :
    (ofRoutes rs).route m path = some found
      ↔ (ofRoutes rs).tree.get? m found.route.pattern = some found.route ∧ found.route.Matches path
        ∧ (∀ q, (ofRoutes rs).tree.get? m q.pattern = some q → q.Matches path → q ≠ found.route →
            Outranks rs found.route q)
        ∧ found.params = bindings found.route.pattern (segments path) := by
  refine ⟨?_, ?_⟩
  · intro h
    obtain ⟨hmatches, hget, hparams, -⟩ := route_eq_some h
    exact ⟨hget, hmatches, fun q => outranks_of_route h, hparams⟩
  · intro h
    obtain ⟨hget, hmatches, houtranks, hparams⟩ := h
    obtain ⟨hmethod, -, hlatest⟩ := get?_ofRoutes_eq_some hget
    obtain ⟨found', hfound'⟩ :=
      Option.isSome_iff_exists.1 (isSome_route_iff.2 ⟨found.route, hlatest.mem, hmethod, hmatches⟩)
    obtain ⟨hmatches', hget', hparams', -⟩ := route_eq_some hfound'
    have hroute : found'.route = found.route := by
      by_contra hne
      have hbelow := houtranks _ hget' hmatches' hne
      exact hbelow.asymm (outranks_of_route hfound' hget hmatches (Ne.symm hne))
    rw [hfound', Option.some.injEq, Match.mk.injEq]
    exact ⟨hroute, by rw [hparams', hparams, hroute]⟩

/-- A static segment that leads nowhere gives way to the parameter that was inserted first, for another method. -/
example :
    ((ofRoutes [⟨.get, "/users/me/posts"⟩, ⟨.options, "/users/:name"⟩, ⟨.get, "/users/:id/likes"⟩,
      ⟨.get, "/users/{name}/likes"⟩]).route .get "/users/me/likes").map answer
      = some ("GET /users/{name}/likes", [("name", "me")]) := by
  decide +kernel

end Router

end ApiContracts.Routing

import ApiContracts.Proofs.Routing.Router
import ApiContracts.Proofs.Text.Pieces
import Mathlib.Data.Finset.Card
import Mathlib.Data.Finset.Image

/-!
# The list of a router and its tree

A router keeps its routes twice: in the tree, by method and pattern, and on a list, by key. An insertion
into a place of the tree that is taken looks on the list for the key of the new route, not for that of the
route whose place it takes. So the list holds every route that was ever inserted, each where it was
inserted last, and the tree only the last one of each place (`Tree.held` reads them off). The two agree as
long as no two routes of one place are written differently.
-/

namespace ApiContracts.Routing

open Http Text

def Route.place (r : Route) : Method × List Segment := (r.method, r.pattern)

theorem Method.space_not_mem_name (m : Method) : ' ' ∉ m.name.toList := by
  intro h
  have htoken := m.token
  rw [isToken, Bool.and_eq_true, List.all_eq_true] at htoken
  have hspace := htoken.2 ' ' h
  revert hspace
  decide

theorem Route.endpoint_injective : Function.Injective Route.endpoint := by
  intro r q h
  have hcut := congrArg (fun key : String => cut ' ' key.toList) h
  have hspace : " ".toList = [' '] := rfl
  simp only [Route.endpoint, String.toList_append, List.append_assoc, hspace, List.singleton_append,
    cut_append (Method.space_not_mem_name _), Option.some.injEq, Prod.mk.injEq, String.toList_inj] at hcut
  have hmethod : r.method = q.method := by
    obtain ⟨⟨name, _⟩, path⟩ := r
    obtain ⟨⟨name', _⟩, path'⟩ := q
    obtain rfl : name = name' := hcut.1
    rfl
  exact Route.eq_of_endpoint hmethod h

/-! ### What a tree holds -/

namespace Tree

mutual

/-- The routes of a tree with their places, node by node. -/
def held : Tree → List ((Method × List Segment) × Route)
  | node rs ss ps =>
    rs.map (fun (m, r) => ((m, []), r)) ++ heldBelow .static ss ++ heldBelow .param ps

def heldBelow (segment : String → Segment) : List (String × Tree) → List ((Method × List Segment) × Route)
  | [] => []
  | (key, sub) :: rest =>
    (held sub).map (fun ((m, ps), r) => ((m, segment key :: ps), r)) ++ heldBelow segment rest

end

theorem mem_heldBelow {segment : String → Segment} {l : List (String × Tree)} {m : Method}
    {ps : List Segment} {r : Route} :
    ((m, ps), r) ∈ heldBelow segment l
      ↔ ∃ key sub qs, (key, sub) ∈ l ∧ ps = segment key :: qs ∧ ((m, qs), r) ∈ sub.held := by
  induction l with
  | nil => simp [heldBelow]
  | cons e rest ih =>
      obtain ⟨key, sub⟩ := e
      rw [heldBelow, List.mem_append, ih, List.mem_map]
      constructor
      · rintro (⟨⟨⟨m', qs⟩, r'⟩, hheld, heq⟩ | ⟨key', sub', qs, hmem, hps, hheld⟩)
        · simp only [Prod.mk.injEq] at heq
          obtain ⟨⟨rfl, rfl⟩, rfl⟩ := heq
          exact ⟨key, sub, qs, List.mem_cons_self, rfl, hheld⟩
        · exact ⟨key', sub', qs, List.mem_cons_of_mem _ hmem, hps, hheld⟩
      · rintro ⟨key', sub', qs, hmem, rfl, hheld⟩
        rcases List.mem_cons.1 hmem with heq | hmem
        · simp only [Prod.mk.injEq] at heq
          obtain ⟨rfl, rfl⟩ := heq
          exact Or.inl ⟨((m, qs), r), hheld, rfl⟩
        · exact Or.inr ⟨key', sub', qs, hmem, rfl, hheld⟩

theorem heldBelow_iff_lookup {segment : String → Segment} (hinj : Function.Injective segment)
    {l : List (String × Tree)} (hnodup : (l.map (·.1)).Nodup) {m : Method} {r : Route}
    (ih : ∀ e ∈ l, ∀ ps, ((m, ps), r) ∈ e.2.held ↔ e.2.get? m ps = some r) {name : String}
    {ps : List Segment} :
    ((m, segment name :: ps), r) ∈ heldBelow segment l ↔ (l.lookup name).bind (get? m ps) = some r := by
  rw [mem_heldBelow, Option.bind_eq_some_iff]
  constructor
  · rintro ⟨key, sub, qs, hmem, hps, hheld⟩
    obtain ⟨hkey, rfl⟩ := List.cons.inj hps
    rw [hinj hkey]
    exact ⟨sub, lookup_of_mem hnodup hmem, (ih _ hmem _).1 hheld⟩
  · rintro ⟨sub, hlookup, hget⟩
    have hmem : (name, sub) ∈ l := mem_of_lookup hlookup
    exact ⟨name, sub, ps, hmem, rfl, (ih _ hmem _).2 hget⟩

theorem mem_held {t : Tree} (ht : t.Distinct) {m : Method} {ps : List Segment} {r : Route} :
    ((m, ps), r) ∈ t.held ↔ t.get? m ps = some r := by
  induction ht generalizing ps with
  | @node rs ss us hroutes hstatics hparams hstatic hparam ihstatic ihparam =>
      have hhere : ((m, ps), r) ∈ rs.map (fun (m, r) => ((m, ([] : List Segment)), r))
          ↔ ps = [] ∧ (m, r) ∈ rs := by
        rw [List.mem_map]
        constructor
        · rintro ⟨e, he, heq⟩
          cases heq
          exact ⟨rfl, he⟩
        · rintro ⟨rfl, he⟩
          exact ⟨(m, r), he, rfl⟩
      have hstaticIff (name : String) (ps : List Segment) :
          ((m, .static name :: ps), r) ∈ heldBelow .static ss ↔ (ss.lookup name).bind (get? m ps) = some r :=
        heldBelow_iff_lookup (fun _ _ => Segment.static.inj) hstatics fun e he _ => ihstatic e he
      have hparamIff (name : String) (ps : List Segment) :
          ((m, .param name :: ps), r) ∈ heldBelow .param us ↔ (us.lookup name).bind (get? m ps) = some r :=
        heldBelow_iff_lookup (fun _ _ => Segment.param.inj) hparams fun e he _ => ihparam e he
      rw [held, List.mem_append, List.mem_append, hhere]
      cases ps with
      | nil =>
          simp only [mem_heldBelow, reduceCtorEq, false_and, and_false, exists_false, or_false, true_and]
          exact ⟨lookup_of_mem hroutes, mem_of_lookup⟩
      | cons p ps =>
          cases p with
          | static s =>
              rw [hstaticIff, mem_heldBelow]
              simp [child, statics]
          | param name =>
              rw [hparamIff, mem_heldBelow]
              simp [child, params]

theorem nodup_heldBelow {segment : String → Segment} (hinj : Function.Injective segment)
    {l : List (String × Tree)} (hnodup : (l.map (·.1)).Nodup)
    (ih : ∀ e ∈ l, (e.2.held.map (·.1)).Nodup) : ((heldBelow segment l).map (·.1)).Nodup := by
  induction l with
  | nil => exact List.nodup_nil
  | cons e rest ihrest =>
      obtain ⟨key, sub⟩ := e
      rw [List.map_cons, List.nodup_cons] at hnodup
      rw [List.forall_mem_cons] at ih
      have hfirst : ((sub.held.map fun ((m, ps), r) => ((m, segment key :: ps), r)).map (·.1)).Nodup := by
        have hplaces : (sub.held.map fun ((m, ps), r) => ((m, segment key :: ps), r)).map (·.1)
            = (sub.held.map (·.1)).map fun (m, ps) => (m, segment key :: ps) := by
          rw [List.map_map, List.map_map]
          rfl
        rw [hplaces]
        refine ih.1.map ?_
        rintro ⟨m, ps⟩ ⟨m', ps'⟩ heq
        simpa using heq
      rw [heldBelow, List.map_append, List.nodup_append]
      refine ⟨hfirst, ihrest hnodup.2 ih.2, ?_⟩
      intro place hplace place' hplace' heq
      obtain ⟨⟨⟨m, ps⟩, r⟩, hheld, rfl⟩ := List.mem_map.1 hplace
      obtain ⟨⟨⟨m', ps'⟩, r'⟩, hheld', rfl⟩ := List.mem_map.1 hplace'
      obtain ⟨⟨⟨m₀, qs⟩, r₀⟩, -, heq₀⟩ := List.mem_map.1 hheld
      obtain ⟨key', sub', qs', hmem, hps', -⟩ := mem_heldBelow.1 hheld'
      simp only [Prod.mk.injEq] at heq heq₀
      obtain ⟨⟨rfl, rfl⟩, rfl⟩ := heq₀
      rw [hps', List.cons.injEq] at heq
      rw [hinj heq.2.1] at hnodup
      exact hnodup.1 (List.mem_map_of_mem (f := (·.1)) hmem)

/-- No place of a tree holds two routes. -/
theorem nodup_held {t : Tree} (ht : t.Distinct) : (t.held.map (·.1)).Nodup := by
  induction ht with
  | @node rs ss us hroutes hstatics hparams hstatic hparam ihstatic ihparam =>
      have hhere : (rs.map (fun (m, r) => ((m, ([] : List Segment)), r))).map (·.1)
          = (rs.map (·.1)).map fun m => (m, []) := by
        rw [List.map_map, List.map_map]
        rfl
      have hnil {place : Method × List Segment} (h : place ∈ (rs.map (·.1)).map fun m => (m, [])) :
          place.2 = [] := by
        obtain ⟨m, -, rfl⟩ := List.mem_map.1 h
        rfl
      have hcons {segment : String → Segment} {l : List (String × Tree)} {place : Method × List Segment}
          (h : place ∈ (heldBelow segment l).map (·.1)) : ∃ key ps, place.2 = segment key :: ps := by
        obtain ⟨⟨⟨m, ps⟩, r⟩, hheld, rfl⟩ := List.mem_map.1 h
        obtain ⟨key, sub, qs, -, rfl, -⟩ := mem_heldBelow.1 hheld
        exact ⟨key, qs, rfl⟩
      rw [held, List.map_append, List.map_append, hhere, List.nodup_append, List.nodup_append]
      refine ⟨⟨?_, ?_, ?_⟩, ?_, ?_⟩
      · exact hroutes.map fun m m' heq => (Prod.mk.inj heq).1
      · exact nodup_heldBelow (fun _ _ => Segment.static.inj) hstatics ihstatic
      · rintro place hplace _ hplace' rfl
        obtain ⟨key, ps, hps⟩ := hcons hplace'
        simp [hnil hplace] at hps
      · exact nodup_heldBelow (fun _ _ => Segment.param.inj) hparams ihparam
      · rintro place hplace _ hplace' rfl
        obtain ⟨name, ps, hps⟩ := hcons hplace'
        rcases List.mem_append.1 hplace with hplace | hplace
        · simp [hnil hplace] at hps
        · obtain ⟨key, qs, hqs⟩ := hcons hplace
          simp [hps] at hqs

end Tree

/-! ### What a router lists -/

namespace Router

theorem dedup_concat {α : Type} [DecidableEq α] (l : List α) (a : α) :
    (l ++ [a]).dedup = l.dedup.filter (· ≠ a) ++ [a] := by
  induction l with
  | nil => simp
  | cons b l ih =>
      rw [List.cons_append]
      by_cases hb : b ∈ l
      · rw [List.dedup_cons_of_mem (List.mem_append_left _ hb), List.dedup_cons_of_mem hb, ih]
      · by_cases hba : b = a
        · subst hba
          rw [List.dedup_cons_of_mem (by simp), List.dedup_cons_of_notMem hb, ih]
          simp
        · rw [List.dedup_cons_of_notMem (by simp [hb, hba]), List.dedup_cons_of_notMem hb, ih]
          simp [hba]

theorem listed_ofRoutes (rs : List Route) : (ofRoutes rs).listed = rs.dedup := by
  induction rs using List.reverseRecOn with
  | nil => rfl
  | append_singleton rs r ih =>
      have hkeys : ∀ q : Route, (q.endpoint != r.endpoint) = decide (q ≠ r) := by
        intro q
        rw [Bool.eq_iff_iff, bne_iff_ne, decide_eq_true_iff, Route.endpoint_injective.ne_iff]
      rw [ofRoutes_concat, insert, dedup_concat, ih]
      by_cases hholds : (ofRoutes rs).holds r = true
      · rw [if_pos hholds]
        simp only [hkeys]
      · have hnew : ∀ q ∈ rs.dedup, decide (q ≠ r) = true := by
          intro q hq
          rw [decide_eq_true_iff]
          rintro rfl
          exact hholds (isSome_get?_ofRoutes.2 ⟨q, List.mem_dedup.1 hq, rfl, rfl⟩)
        rw [if_neg hholds, List.filter_eq_self.2 hnew]

theorem mem_places_held {rs : List Route} {place : Method × List Segment} :
    place ∈ (ofRoutes rs).tree.held.map (·.1) ↔ place ∈ rs.map Route.place := by
  obtain ⟨m, ps⟩ := place
  have hstored : (∃ r, ((m, ps), r) ∈ (ofRoutes rs).tree.held) ↔ ∃ r ∈ rs, r.method = m ∧ r.pattern = ps := by
    rw [← isSome_get?_ofRoutes, Option.isSome_iff_exists]
    simp only [Tree.mem_held (distinct_ofRoutes rs)]
  simpa [Route.place] using hstored

theorem length_held (rs : List Route) :
    (ofRoutes rs).tree.held.length = (rs.map Route.place).dedup.length := by
  have hnodup := Tree.nodup_held (distinct_ofRoutes rs)
  have hperm : ((ofRoutes rs).tree.held.map (·.1)).Perm (rs.map Route.place).dedup := by
    rw [List.perm_ext_iff_of_nodup hnodup (List.nodup_dedup _)]
    intro place
    rw [mem_places_held, List.mem_dedup]
  rw [← hperm.length_eq, List.length_map]

theorem size_ofRoutes (rs : List Route) : (ofRoutes rs).size = rs.dedup.length := by
  rw [size, listed_ofRoutes]

theorem endpoints_ofRoutes (rs : List Route) :
    (ofRoutes rs).endpoints = (rs.map Route.endpoint).dedup := by
  rw [endpoints, listed_ofRoutes, List.dedup_map_of_injective Route.endpoint_injective]

theorem mem_endpoints_of_held {rs : List Route} {entry : (Method × List Segment) × Route}
    (h : entry ∈ (ofRoutes rs).tree.held) : entry.2.endpoint ∈ (ofRoutes rs).endpoints := by
  obtain ⟨-, -, hlatest⟩ := get?_ofRoutes_eq_some ((Tree.mem_held (distinct_ofRoutes rs)).1 h)
  rw [endpoints_ofRoutes, List.mem_dedup]
  exact List.mem_map_of_mem hlatest.mem

/-- Whether routes of one place are written alike. -/
def SpelledAlike (rs : List Route) : Prop := ∀ r ∈ rs, ∀ q ∈ rs, r.place = q.place → r = q

theorem card_places (rs : List Route) :
    (ofRoutes rs).tree.held.length = (rs.toFinset.image Route.place).card
      ∧ (ofRoutes rs).size = rs.toFinset.card := by
  have himage : rs.toFinset.image Route.place = (rs.map Route.place).toFinset := by
    ext place
    simp
  rw [length_held, size_ofRoutes, himage, List.card_toFinset, List.card_toFinset]
  exact ⟨rfl, rfl⟩

theorem length_held_le_size (rs : List Route) : (ofRoutes rs).tree.held.length ≤ (ofRoutes rs).size := by
  rw [(card_places rs).1, (card_places rs).2]
  exact Finset.card_image_le

theorem size_eq_length_held_iff {rs : List Route} :
    (ofRoutes rs).size = (ofRoutes rs).tree.held.length ↔ SpelledAlike rs := by
  rw [(card_places rs).1, (card_places rs).2, eq_comm, Finset.card_image_iff]
  simp [Set.InjOn, SpelledAlike]

/-- A place holds one route, so of routes written differently there one is listed and not held. -/
theorem endpoints_held_iff {rs : List Route} :
    (∀ key ∈ (ofRoutes rs).endpoints, ∃ entry ∈ (ofRoutes rs).tree.held, entry.2.endpoint = key)
      ↔ SpelledAlike rs := by
  have hkey {r : Route} (hr : r ∈ rs) : r.endpoint ∈ (ofRoutes rs).endpoints := by
    rw [endpoints_ofRoutes, List.mem_dedup]
    exact List.mem_map_of_mem hr
  constructor
  · intro h
    have hheld : ∀ r ∈ rs, (ofRoutes rs).tree.get? r.place.1 r.place.2 = some r := by
      intro r hr
      obtain ⟨⟨⟨m, ps⟩, q⟩, hmem, heq⟩ := h _ (hkey hr)
      have hget := (Tree.mem_held (distinct_ofRoutes rs)).1 hmem
      obtain ⟨rfl, rfl, -⟩ := get?_ofRoutes_eq_some hget
      obtain rfl : q = r := Route.endpoint_injective heq
      exact hget
    intro r hr q hq hplace
    have hr' := hheld r hr
    rw [hplace, hheld q hq, Option.some.injEq] at hr'
    exact hr'.symm
  · intro halike key hmem
    rw [endpoints_ofRoutes, List.mem_dedup, List.mem_map] at hmem
    obtain ⟨r, hr, rfl⟩ := hmem
    obtain ⟨q, hget⟩ := Option.isSome_iff_exists.1 (isSome_get?_ofRoutes.2 ⟨r, hr, rfl, rfl⟩)
    obtain ⟨hmethod, hpattern, hlatest⟩ := get?_ofRoutes_eq_some hget
    have hsame : q = r := halike q hlatest.mem r hr (Prod.ext hmethod hpattern)
    exact ⟨_, (Tree.mem_held (distinct_ofRoutes rs)).2 hget, congrArg Route.endpoint hsame⟩

theorem dropLast_endpoints_insert (rs : List Route) (r : Route) :
    ((ofRoutes rs).insert r).endpoints.dropLast = (ofRoutes rs).endpoints.filter (· ≠ r.endpoint) := by
  rw [← ofRoutes_concat, endpoints_ofRoutes, List.map_append, List.map_singleton, dedup_concat,
    List.dropLast_concat, ← endpoints_ofRoutes]

/-- The tree of a router holds one route for each place of those inserted, and its list all keys inserted.
They agree, in number or in that everything listed is held, exactly when routes of one place are written
alike, and a route that is replaced leaves the list exactly when its key is that of the new one. -/
theorem listing_agrees_iff_spelled_alike (rs : List Route) :
    (ofRoutes rs).tree.held.length = (rs.map Route.place).dedup.length
      ∧ (ofRoutes rs).endpoints = (rs.map Route.endpoint).dedup
      ∧ (∀ entry ∈ (ofRoutes rs).tree.held, entry.2.endpoint ∈ (ofRoutes rs).endpoints)
      ∧ (ofRoutes rs).tree.held.length ≤ (ofRoutes rs).size
      ∧ ((ofRoutes rs).size = (ofRoutes rs).tree.held.length ↔ SpelledAlike rs)
      ∧ ((∀ key ∈ (ofRoutes rs).endpoints, ∃ entry ∈ (ofRoutes rs).tree.held, entry.2.endpoint = key)
          ↔ SpelledAlike rs)
      ∧ ∀ r replaced, (ofRoutes rs).tree.get? r.method r.pattern = some replaced →
          (replaced.endpoint ∈ ((ofRoutes rs).insert r).endpoints.dropLast
            ↔ replaced.endpoint ≠ r.endpoint) := by
  refine ⟨length_held rs, endpoints_ofRoutes rs, fun _ => mem_endpoints_of_held, length_held_le_size rs,
    size_eq_length_held_iff, endpoints_held_iff, ?_⟩
  intro r replaced hget
  have hlisted : replaced.endpoint ∈ (ofRoutes rs).endpoints :=
    mem_endpoints_of_held ((Tree.mem_held (distinct_ofRoutes rs)).2 hget)
  rw [dropLast_endpoints_insert, List.mem_filter, and_iff_right hlisted, decide_eq_true_iff]

/-- A path spelled again, as it was and with a slash more. -/
theorem listing_agrees_spelled_again :
    let router := ofRoutes [⟨.get, "/users/:id"⟩, ⟨.options, "/users/:id/"⟩, ⟨.get, "/users/:id"⟩]
    router.endpoints = ["OPTIONS /users/:id/", "GET /users/:id"]
      ∧ router.tree.get? .get (pattern "/users/:id/") = some ⟨.get, "/users/:id"⟩
      ∧ router.size = router.tree.held.length
      ∧ "GET /users/:id" ∈ (router.insert ⟨.get, "/users/:id/"⟩).endpoints.dropLast := by
  obtain ⟨-, hendpoints, -, -, hsize, -, hreplaced⟩ :=
    listing_agrees_iff_spelled_alike [⟨.get, "/users/:id"⟩, ⟨.options, "/users/:id/"⟩, ⟨.get, "/users/:id"⟩]
  have hheld : (ofRoutes [⟨.get, "/users/:id"⟩, ⟨.options, "/users/:id/"⟩, ⟨.get, "/users/:id"⟩]).tree.get? .get
      (pattern "/users/:id/") = some ⟨.get, "/users/:id"⟩ := by decide +kernel
  refine ⟨?_, hheld, hsize.2 (by unfold SpelledAlike; decide +kernel),
    (hreplaced ⟨.get, "/users/:id/"⟩ _ hheld).2 (by decide +kernel)⟩
  rw [hendpoints]
  decide +kernel

/-- Two spellings of one path. -/
theorem replaced_route_stays_listed :
    let router := ofRoutes [⟨.get, "/a"⟩, ⟨.get, "/a/"⟩]
    router.size = 2 ∧ router.tree.held.length = 1
      ∧ (ofRoutes [⟨.get, "/a"⟩]).tree.get? .get (pattern "/a/") = some ⟨.get, "/a"⟩
      ∧ "GET /a" ∈ router.endpoints
      ∧ ¬ ∃ entry ∈ router.tree.held, entry.2.endpoint = "GET /a" := by
  refine ⟨by decide +kernel, by decide +kernel, by decide +kernel, by decide +kernel, ?_⟩
  decide +kernel

end Router

end ApiContracts.Routing

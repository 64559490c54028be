import ApiContracts.Proofs.Routing.Order
import ApiContracts.Proofs.Text.Pieces
import Mathlib.Data.Set.Finite.Basic

/-!
# Which routes can be reached

A route that was inserted answers some request unless one of two things took its place: a later route of
its method and its pattern, or a route that shadows it (`Shadowed`), which matches every path that it matches
and is tried first wherever both match. A search prefers static segments to parameters, and of two parameters of a
node the one that was added first (`paramNames`), for whatever method.

The request that shows a route to be reached is as unlike the other routes as its pattern allows: its
parameters take a segment that no route of the router spells out (`Segment.filled`). What matches this
request matches every other one that the route matches, and no static segment of another route is preferred
there.
-/

namespace ApiContracts.Routing

open Http Text

/-! ### Paths of given segments -/

theorem mem_segments {path s : String} (h : s ∈ segments path) : s ≠ "" ∧ '/' ∉ s.toList := by
  rw [segments, List.mem_filter, splitText, List.mem_map] at h
  obtain ⟨⟨piece, hpiece, rfl⟩, hne⟩ := h
  refine ⟨by simpa using hne, ?_⟩
  rw [String.toList_ofList]
  exact not_mem_of_mem_pieces hpiece

def pathOf (ss : List String) : String := String.ofList (ss.flatMap fun s => '/' :: s.toList)

theorem pieces_pathOf {ss : List String} {as : List Char} (has : '/' ∉ as)
    (h : ∀ s ∈ ss, '/' ∉ s.toList) :
    pieces '/' (as ++ ss.flatMap fun s => '/' :: s.toList) = as :: ss.map String.toList := by
  induction ss generalizing as with
  | nil =>
      rw [List.flatMap_nil, List.append_nil, pieces_of_not_mem has]
      rfl
  | cons s ss ih =>
      rw [List.forall_mem_cons] at h
      rw [List.flatMap_cons, List.cons_append, pieces_append has, ih h.1 h.2]
      rfl

theorem segments_pathOf {ss : List String} (h : ∀ s ∈ ss, s ≠ "" ∧ '/' ∉ s.toList) :
    segments (pathOf ss) = ss := by
  have hnil : '/' ∉ ([] : List Char) := by simp
  have hpieces := pieces_pathOf hnil fun s hs => (h s hs).2
  rw [List.nil_append] at hpieces
  have hkept : ss.filter (fun s => !s.isEmpty) = ss := by
    rw [List.filter_eq_self]
    intro s hs
    simpa using (h s hs).1
  rw [segments, splitText, pathOf, String.toList_ofList, hpieces, List.map_cons, List.map_map]
  simpa [Function.comp_def] using hkept

/-! ### A request like no other -/

/-- The segment of a request that a segment of a pattern takes, with a text for a parameter. -/
def Segment.filled (text : String) : Segment → String
  | .static t => t
  | .param _ => text

/-- Whether a pattern does not spell out a text. -/
def Avoids (text : String) (ps : List Segment) : Prop := .static text ∉ ps

section Filled

variable {text : String} {ps qs : List Segment}

theorem fits_filled : fits ps (ps.map (Segment.filled text)) = true := by
  induction ps with
  | nil => rfl
  | cons p ps ih =>
      rw [List.map_cons, fits_cons]
      refine ⟨?_, ih⟩
      cases p <;> simp [Segment.filled, Segment.takes]

theorem fits_of_fits_filled {ss : List String} (havoids : Avoids text qs)
    (hqs : fits qs (ps.map (Segment.filled text)) = true) (hps : fits ps ss = true) :
    fits qs ss = true := by
  induction ps generalizing qs ss with
  | nil =>
      rw [fits_nil_left] at hps
      rwa [hps]
  | cons p ps ih =>
      cases qs with
      | nil => simp at hqs
      | cons q qs =>
          cases ss with
          | nil => simp at hps
          | cons s ss =>
              rw [Avoids, List.mem_cons, not_or] at havoids
              rw [List.map_cons, fits_cons] at hqs
              rw [fits_cons] at hps ⊢
              refine ⟨?_, ih havoids.2 hqs.2 hps.2⟩
              cases q with
              | param name => rfl
              | static t =>
                  have ht : t = p.filled text := by simpa [Segment.takes] using hqs.1
                  cases p with
                  | static t' =>
                      rw [ht]
                      exact hps.1
                  | param name => exact absurd (congrArg Segment.static ht.symm) havoids.1

theorem not_precedes_of_fits_filled (havoids : Avoids text qs)
    (hqs : fits qs (ps.map (Segment.filled text)) = true) : ¬ Precedes qs ps := by
  intro h
  induction h with
  | @here t =>
      rw [Avoids, List.mem_cons, not_or] at havoids
      rw [List.map_cons, fits_cons] at hqs
      have ht : t = text := by simpa [Segment.takes, Segment.filled] using hqs.1
      exact havoids.1 (congrArg Segment.static ht.symm)
  | under _ ih =>
      rw [Avoids, List.mem_cons, not_or] at havoids
      rw [List.map_cons, fits_cons] at hqs
      exact ih havoids.2 hqs.2

end Filled

theorem mem_segments_of_static {path t : String} (h : .static t ∈ pattern path) :
    t ∈ segments path := by
  rw [pattern, List.mem_map] at h
  obtain ⟨text, htext, hstatic⟩ := h
  exact Segment.ofText_eq_static hstatic ▸ htext

theorem exists_fresh_segment (texts : List String) :
    ∃ s, s ∉ texts ∧ s ≠ "" ∧ '/' ∉ s.toList := by
  have hinjective : Function.Injective fun n => String.ofList (List.replicate (n + 1) 'x') := by
    intro m n h
    have hlength := congrArg String.length h
    simpa using hlength
  obtain ⟨_, ⟨n, rfl⟩, hn⟩ :=
    (Set.infinite_range_of_injective hinjective).exists_notMem_finset texts.toFinset
  refine ⟨_, by simpa using hn, ?_, ?_⟩
  · intro hempty
    have hlength := congrArg String.length hempty
    simp at hlength
  · rw [String.toList_ofList]
    intro hslash
    have hx := List.eq_of_mem_replicate hslash
    revert hx
    decide

/-- A request that a route matches, whose parameters take a segment that no route spells out. -/
theorem exists_filled_path (rs : List Route) (r : Route) :
    ∃ path text, segments path = r.pattern.map (Segment.filled text)
      ∧ ∀ q ∈ rs, Avoids text q.pattern := by
  obtain ⟨text, hfresh, hne, hslash⟩ := exists_fresh_segment (rs.flatMap fun q => segments q.path)
  refine ⟨pathOf (r.pattern.map (Segment.filled text)), text, segments_pathOf ?_, ?_⟩
  · intro s hs
    obtain ⟨p, hp, rfl⟩ := List.mem_map.1 hs
    cases p with
    | static t => exact mem_segments (mem_segments_of_static hp)
    | param name => exact ⟨hne, hslash⟩
  · intro q hq hstatic
    exact hfresh (List.mem_flatMap.2 ⟨q, hq, mem_segments_of_static hstatic⟩)

/-! ### The parameters of a node -/

/-- The name of the parameter that stands behind some segments of a pattern. -/
def nextParam? : (shared ps : List Segment) → Option String
  | [], .param name :: _ => some name
  | s :: shared, p :: ps => if s = p then nextParam? shared ps else none
  | _, _ => none

/-- The names of the parameters behind some segments, in the order of the routes. -/
def paramNames (rs : List Route) (shared : List Segment) : List String :=
  rs.filterMap fun r => nextParam? shared r.pattern

namespace Tree

def paramsAt : List Segment → Tree → List String
  | [], t => t.params.map (·.1)
  | s :: shared, t => ((t.child s).map (paramsAt shared)).getD []

theorem paramsAt_empty {shared : List Segment} : paramsAt shared empty = [] := by
  cases shared with
  | nil => rfl
  | cons s shared => cases s <;> rfl

theorem paramsAt_insert {r : Route} {shared ps : List Segment} {t : Tree} :
    paramsAt shared (t.insert r ps)
      = match nextParam? shared ps with
        | some name =>
            if name ∈ paramsAt shared t then paramsAt shared t else paramsAt shared t ++ [name]
        | none => paramsAt shared t := by
  induction shared generalizing t ps with
  | nil =>
      obtain ⟨routes, statics, params⟩ := t
      cases ps with
      | nil => rfl
      | cons p ps =>
          cases p with
          | static text => rfl
          | param name => exact keys_alter
  | cons s shared ih =>
      cases ps with
      | nil => simp only [paramsAt, child_insert_nil, nextParam?]
      | cons p ps =>
          rw [paramsAt, child_insert_cons, nextParam?]
          by_cases hs : s = p
          · subst hs
            rw [if_pos rfl, if_pos rfl, Option.map_some, Option.getD_some, ih, paramsAt]
            cases t.child s with
            | none => simp only [Option.getD_none, Option.map_none, paramsAt_empty]
            | some sub => rfl
          · rw [if_neg hs, if_neg hs, paramsAt]

/-- A pattern is tried before another for a static segment where they part, or for an earlier parameter. -/
theorem Before.cases_paramsAt {t : Tree} {ps qs : List Segment} (h : t.Before ps qs) :
    Precedes ps qs ∨ ∃ shared a b ps' qs', ps = shared ++ .param a :: ps'
      ∧ qs = shared ++ .param b :: qs' ∧ [a, b].Sublist (paramsAt shared t) := by
  induction h with
  | static => exact Or.inl .here
  | params _ horder => exact Or.inr ⟨[], _, _, _, _, rfl, rfl, horder⟩
  | @under t sub p ps qs hchild _ ih =>
      rcases ih with hprecedes | ⟨shared, a, b, ps', qs', rfl, rfl, horder⟩
      · exact Or.inl (.under hprecedes)
      · refine Or.inr ⟨p :: shared, a, b, ps', qs', rfl, rfl, ?_⟩
        rw [paramsAt, hchild]
        exact horder

theorem Before.sublist_paramsAt {t : Tree} {shared ps qs : List Segment} {a b : String} (hne : a ≠ b)
    (h : t.Before (shared ++ .param a :: ps) (shared ++ .param b :: qs)) :
    [a, b].Sublist (paramsAt shared t) := by
  induction shared generalizing t with
  | nil =>
      cases h with
      | params _ horder => exact horder
      | under _ _ => exact absurd rfl hne
  | cons s shared ih =>
      cases h with
      | params hne' _ => exact absurd rfl hne'
      | under hchild hsub =>
          rw [paramsAt, hchild]
          exact ih hsub

end Tree

/-- Whether keys are names without their repetitions, in the order in which each stands first. -/
structure FirstsOf (keys names : List String) : Prop where
  mem : ∀ x, x ∈ keys ↔ x ∈ names
  order : ∀ a b, [a, b].Sublist keys → names.idxOf a < names.idxOf b

namespace FirstsOf

theorem nil : FirstsOf [] [] := by
  refine ⟨by simp, ?_⟩
  intro a b h
  simp at h

variable {keys names : List String}

theorem idxOf_append_lt (h : FirstsOf keys names) {a b new : String} (horder : [a, b].Sublist keys) :
    (names ++ [new]).idxOf a < (names ++ [new]).idxOf b := by
  have ha : a ∈ names := (h.mem a).1 (horder.subset (by simp))
  have hb : b ∈ names := (h.mem b).1 (horder.subset (by simp))
  rw [List.idxOf_append_of_mem ha, List.idxOf_append_of_mem hb]
  exact h.order a b horder

theorem concat (h : FirstsOf keys names) (new : String) :
    FirstsOf (if new ∈ keys then keys else keys ++ [new]) (names ++ [new]) := by
  by_cases hnew : new ∈ keys
  · rw [if_pos hnew]
    refine ⟨?_, fun a b => h.idxOf_append_lt⟩
    intro x
    have hx : x = new → x ∈ names := by
      rintro rfl
      exact (h.mem x).1 hnew
    rw [h.mem, List.mem_append, List.mem_singleton, or_iff_left_of_imp hx]
  · rw [if_neg hnew]
    refine ⟨fun x => by simp [h.mem], ?_⟩
    intro a b horder
    obtain ⟨l₁, l₂, heq, h₁, h₂⟩ := List.sublist_append_iff.1 horder
    rcases List.sublist_singleton.1 h₂ with rfl | rfl
    · rw [List.append_nil] at heq
      exact h.idxOf_append_lt (heq ▸ h₁)
    · obtain ⟨rfl, rfl⟩ : l₁ = [a] ∧ new = b := by
        have hparts : [a] ++ [b] = l₁ ++ [new] := heq
        rw [List.append_inj_left' hparts rfl]
        simpa using (List.append_inj_right' hparts rfl).symm
      have ha : a ∈ names := (h.mem a).1 (h₁.subset (by simp))
      have hb : new ∉ names := fun hmem => hnew ((h.mem new).2 hmem)
      have hlt : names.idxOf a < names.length := List.idxOf_lt_length_iff.2 ha
      rw [List.idxOf_append_of_mem ha, List.idxOf_append_of_notMem hb]
      omega

end FirstsOf

/-! ### Routes in the place of others -/

def Route.Covers (q r : Route) : Prop := ∀ path, r.Matches path → q.Matches path

namespace Router

theorem firstsOf_paramsAt (rs : List Route) (shared : List Segment) :
    FirstsOf ((ofRoutes rs).tree.paramsAt shared) (paramNames rs shared) := by
  induction rs using List.reverseRecOn with
  | nil =>
      have hempty : (ofRoutes []).tree.paramsAt shared = [] := Tree.paramsAt_empty
      rw [hempty]
      exact .nil
  | append_singleton rs r ih =>
      have hnames : paramNames (rs ++ [r]) shared
          = paramNames rs shared ++ (nextParam? shared r.pattern).toList := by
        rw [paramNames, List.filterMap_append, paramNames]
        cases hnext : nextParam? shared r.pattern <;> simp [hnext]
      rw [ofRoutes_concat, insert, Tree.paramsAt_insert, hnames]
      cases nextParam? shared r.pattern with
      | none =>
          rw [Option.toList_none, List.append_nil]
          exact ih
      | some new => exact ih.concat new

/-- Whether another route answers wherever a route could: it has the method, it covers the route, and where
the two part, each has a parameter, of which the other's was added first. -/
def Shadowed (rs : List Route) (r : Route) : Prop :=
  ∃ q ∈ rs, q.method = r.method ∧ q.Covers r
    ∧ ∃ shared a b ps qs, r.pattern = shared ++ .param a :: ps ∧ q.pattern = shared ++ .param b :: qs
      ∧ (paramNames rs shared).idxOf b < (paramNames rs shared).idxOf a

theorem get?_of_latest {rs : List Route} {r : Route} (h : Latest rs r) :
    (ofRoutes rs).tree.get? r.method r.pattern = some r := by
  obtain ⟨before, after, rfl, hafter⟩ := h
  have hnone : after.reverse.find? (fun q => decide (q.method = r.method ∧ q.pattern = r.pattern))
      = none := by
    rw [List.find?_eq_none]
    intro q hq
    simpa using hafter q (List.mem_reverse.1 hq)
  rw [get?_ofRoutes, List.reverse_append, List.reverse_cons, List.append_assoc, List.find?_append,
    hnone, Option.none_or, List.singleton_append, List.find?_cons_of_pos (by simp)]

theorem not_shadowed_of_route {rs : List Route} {m : Method} {path : String} {found : Match}
    (h : (ofRoutes rs).route m path = some found) : ¬ Shadowed rs found.route := by
  rintro ⟨q, hq, hmethod, hcovers, shared, a, b, ps, qs, hps, hqs, horder⟩
  obtain ⟨hmatches, hget, -, hfirst⟩ := route_eq_some h
  obtain ⟨hm, -, -⟩ := get?_ofRoutes_eq_some hget
  have hne : a ≠ b := by
    rintro rfl
    exact Nat.lt_irrefl _ horder
  have hpattern : q.pattern ≠ found.route.pattern := by
    rw [hps, hqs]
    intro heq
    rw [List.append_cancel_left_eq, List.cons.injEq, Segment.param.injEq] at heq
    exact hne heq.1.symm
  have hstored : ((ofRoutes rs).tree.get? m q.pattern).isSome :=
    isSome_get?_ofRoutes.2 ⟨q, hq, hmethod.trans hm, rfl⟩
  have hbefore := hfirst _ (matches_iff.1 (hcovers path hmatches)) hstored hpattern
  rw [hps, hqs] at hbefore
  have hlt := (firstsOf_paramsAt rs shared).order a b (hbefore.sublist_paramsAt hne)
  omega

theorem shadowed_of_route_filled {rs : List Route} {r : Route} {path text : String} {found : Match}
    (hr : Latest rs r) (hpath : segments path = r.pattern.map (Segment.filled text))
    (havoids : ∀ q ∈ rs, Avoids text q.pattern) (h : (ofRoutes rs).route r.method path = some found)
    (hne : found.route ≠ r) : Shadowed rs r := by
  obtain ⟨hmatches, hget, -, hfirst⟩ := route_eq_some h
  obtain ⟨hm, -, hlatest⟩ := get?_ofRoutes_eq_some hget
  have hget' := get?_of_latest hr
  have hpattern : r.pattern ≠ found.route.pattern := by
    intro heq
    rw [← heq, hget', Option.some.injEq] at hget
    exact hne hget.symm
  have hfits : fits r.pattern (segments path) = true := by
    rw [hpath]
    exact fits_filled
  have hfits' : fits found.route.pattern (r.pattern.map (Segment.filled text)) = true := by
    rw [← hpath]
    exact matches_iff.1 hmatches
  have hfound := havoids _ hlatest.mem
  have hbefore := hfirst _ hfits (by rw [hget']; rfl) hpattern
  rcases hbefore.cases_paramsAt with hprecedes | ⟨shared, b, a, qs, ps, hqs, hps, horder⟩
  · exact absurd hprecedes (not_precedes_of_fits_filled hfound hfits')
  · refine ⟨_, hlatest.mem, hm, ?_, shared, a, b, ps, qs, hps, hqs, ?_⟩
    · intro path' hmatches'
      exact matches_iff.2 (fits_of_fits_filled hfound hfits' (matches_iff.1 hmatches'))
    · exact (firstsOf_paramsAt rs shared).order b a horder

theorem eq_route_iff_endpoint {rs : List Route} {r : Route} {path : String} {found : Match}
    (h : (ofRoutes rs).route r.method path = some found) :
    found.route = r ↔ found.route.endpoint = r.endpoint := by
  obtain ⟨-, hget, -, -⟩ := route_eq_some h
  obtain ⟨hmethod, -, -⟩ := get?_ofRoutes_eq_some hget
  exact ⟨congrArg Route.endpoint, Route.eq_of_endpoint hmethod⟩

/-- Whether some request of its method that a route matches is answered by it. -/
def Reached (t : Router) (r : Route) : Prop :=
  ∃ path found, r.Matches path ∧ t.route r.method path = some found ∧ found.route = r

/-- A route is reached exactly when it is the last one of its place and no other one shadows it. -/
theorem reached_iff {rs : List Route} {r : Route} :
    Reached (ofRoutes rs) r ↔ Latest rs r ∧ ¬ Shadowed rs r := by
  constructor
  · rintro ⟨path, found, -, hroute, rfl⟩
    obtain ⟨-, hget, -, -⟩ := route_eq_some hroute
    obtain ⟨-, -, hlatest⟩ := get?_ofRoutes_eq_some hget
    exact ⟨hlatest, not_shadowed_of_route hroute⟩
  · rintro ⟨hlatest, hshadowed⟩
    obtain ⟨path, text, hpath, havoids⟩ := exists_filled_path rs r
    have hmatches : r.Matches path := by
      rw [matches_iff, hpath]
      exact fits_filled
    obtain ⟨found, hfound⟩ :=
      Option.isSome_iff_exists.1 (isSome_route_iff.2 ⟨r, hlatest.mem, rfl, hmatches⟩)
    refine ⟨path, found, hmatches, hfound, ?_⟩
    by_contra hne
    exact hshadowed (shadowed_of_route_filled hlatest hpath havoids hfound hne)

end Router

end ApiContracts.Routing

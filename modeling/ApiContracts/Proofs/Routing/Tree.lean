import ApiContracts.Proofs.Routing.Pattern
import ApiContracts.Proofs.Table
import Mathlib.Data.List.Nodup

/-!
# What the route tree holds and what a search finds

`Tree.get?` reads the route stored at a pattern, and insertion is an update of it at one pattern. A
search is told by it alone: it finds a stored pattern that fits the request, it finds one whenever
there is one, and of several it finds the one that stands `Before` all others. Going back out of a
branch leaves nothing behind, because what a search answers is read off the pattern it ends at.

The order of the parameters of a node is the order in which they were added, so `Before` depends on
the insertions; `Distinct`, that no key of a node stands twice, does not and holds of every tree
that insertions build.
-/

namespace ApiContracts.Routing

open Http Text

section Alter

variable {κ α : Type} [DecidableEq κ] {key : κ} {fresh : α} {f : α → α}

theorem lookup_alter {l : List (κ × α)} {k : κ} :
    (alter key fresh f l).lookup k
      = if k = key then some (f ((l.lookup key).getD fresh)) else l.lookup k := by
  induction l with
  | nil => rw [alter, lookup_cons_ite, List.lookup_nil, List.lookup_nil, Option.getD_none]
  | cons e l ih =>
      obtain ⟨k', v⟩ := e
      rw [alter]
      by_cases hk' : k' = key
      · subst hk'
        rw [if_pos rfl, List.lookup_cons_self, Option.getD_some]
        exact lookup_cons_replaced
      · have hbehind : ((k', v) :: l).lookup key = l.lookup key := by
          rw [lookup_cons_ite, if_neg (Ne.symm hk')]
        rw [if_neg hk', hbehind]
        exact lookup_cons_changed hk' ih

theorem keys_alter {l : List (κ × α)} :
    (alter key fresh f l).map (·.1)
      = if key ∈ l.map (·.1) then l.map (·.1) else l.map (·.1) ++ [key] := by
  induction l with
  | nil => simp [alter]
  | cons e l ih =>
      obtain ⟨k', v⟩ := e
      by_cases hk' : k' = key
      · simp [alter, hk']
      · have hne : ¬ key = k' := fun h => hk' h.symm
        rw [alter, if_neg hk', List.map_cons, ih]
        by_cases hmem : key ∈ l.map (·.1)
        · simp [hmem]
        · simp [hmem, hne]

theorem nodup_keys_alter {l : List (κ × α)} (h : (l.map (·.1)).Nodup) :
    ((alter key fresh f l).map (·.1)).Nodup := by
  rw [keys_alter]
  split
  · exact h
  · next hkey =>
      rw [List.nodup_append]
      refine ⟨h, List.nodup_singleton key, ?_⟩
      rintro k hk k' hk' rfl
      exact hkey (List.mem_singleton.1 hk' ▸ hk)

theorem mem_alter {l : List (κ × α)} {e : κ × α} (h : e ∈ alter key fresh f l) :
    e ∈ l ∨ e.2 = f fresh ∨ ∃ v, (key, v) ∈ l ∧ e.2 = f v := by
  induction l with
  | nil =>
      simp only [alter, List.mem_singleton] at h
      exact Or.inr (Or.inl (by rw [h]))
  | cons e' l ih =>
      obtain ⟨k', v⟩ := e'
      by_cases hk' : k' = key
      · rw [alter, if_pos hk', List.mem_cons] at h
        rcases h with rfl | h
        · exact Or.inr (Or.inr ⟨v, by simp [hk'], rfl⟩)
        · exact Or.inl (List.mem_cons_of_mem _ h)
      · rw [alter, if_neg hk', List.mem_cons] at h
        rcases h with rfl | h
        · exact Or.inl List.mem_cons_self
        · rcases ih h with h | h | ⟨w, hw, hf⟩
          · exact Or.inl (List.mem_cons_of_mem _ h)
          · exact Or.inr (Or.inl h)
          · exact Or.inr (Or.inr ⟨w, List.mem_cons_of_mem _ hw, hf⟩)

end Alter

namespace Tree

@[simp] theorem get?_nil {m : Method} {t : Tree} : t.get? m [] = t.routes.lookup m := by
  rfl

@[simp] theorem get?_cons {m : Method} {p : Segment} {ps : List Segment} {t : Tree} :
    t.get? m (p :: ps) = (t.child p).bind (get? m ps) := by
  rfl

@[simp] theorem get?_empty {m : Method} {ps : List Segment} : empty.get? m ps = none := by
  cases ps with
  | nil => rfl
  | cons p ps => cases p <;> rfl

/-! ### Insertion -/

theorem child_insert_cons {r : Route} {q : Segment} {qs : List Segment} {t : Tree} {p : Segment} :
    (t.insert r (q :: qs)).child p
      = if p = q then some (((t.child q).getD empty).insert r qs) else t.child p := by
  obtain ⟨rs, ss, ps⟩ := t
  cases q <;> cases p <;> simp [insert, child, statics, params, lookup_alter]

theorem child_insert_nil {r : Route} {t : Tree} {p : Segment} :
    (t.insert r []).child p = t.child p := by
  obtain ⟨rs, ss, ps⟩ := t
  cases p <;> rfl

theorem routes_insert_cons {r : Route} {q : Segment} {qs : List Segment} {t : Tree} :
    (t.insert r (q :: qs)).routes = t.routes := by
  obtain ⟨rs, ss, ps⟩ := t
  cases q <;> rfl

/-- Insertion changes what is stored at one pattern for one method. -/
theorem get?_insert {m : Method} {r : Route} {qs ps : List Segment} {t : Tree} :
    (t.insert r qs).get? m ps = if m = r.method ∧ ps = qs then some r else t.get? m ps := by
  induction qs generalizing ps t with
  | nil =>
      cases ps with
      | nil =>
          obtain ⟨rs, ss, ps⟩ := t
          simp [insert, routes, lookup_alter]
      | cons p ps => simp [child_insert_nil]
  | cons q qs ih =>
      cases ps with
      | nil => simp [routes_insert_cons]
      | cons p ps =>
          rw [get?_cons, child_insert_cons, get?_cons]
          by_cases hp : p = q
          · subst hp
            rw [if_pos rfl, Option.bind_some, ih]
            cases hchild : t.child p <;> simp
          · simp [hp]

/-- No key stands twice at any node. -/
inductive Distinct : Tree → Prop
  | node {rs : List (Method × Route)} {ss ps : List (String × Tree)}
      (hroutes : (rs.map (·.1)).Nodup) (hstatics : (ss.map (·.1)).Nodup)
      (hparams : (ps.map (·.1)).Nodup) (hstatic : ∀ e ∈ ss, Distinct e.2)
      (hparam : ∀ e ∈ ps, Distinct e.2) : Distinct (.node rs ss ps)

theorem Distinct.nodup_params {t : Tree} (h : t.Distinct) : (t.params.map (·.1)).Nodup := by
  cases h
  assumption

theorem Distinct.child {t sub : Tree} (h : t.Distinct) {p : Segment}
    (hchild : t.child p = some sub) : sub.Distinct := by
  obtain ⟨hroutes, hstatics, hparams, hstatic, hparam⟩ := h
  cases p with
  | static s => exact hstatic _ (mem_of_lookup hchild)
  | param n => exact hparam _ (mem_of_lookup hchild)

theorem distinct_empty : empty.Distinct := by
  exact .node List.nodup_nil List.nodup_nil List.nodup_nil (by simp) (by simp)

theorem Distinct.insert {r : Route} {qs : List Segment} {t : Tree} (h : t.Distinct) :
    (t.insert r qs).Distinct := by
  have hentries {l : List (String × Tree)} {key : String} {qs : List Segment}
      (ih : ∀ {t : Tree}, t.Distinct → (t.insert r qs).Distinct) (hl : ∀ e ∈ l, e.2.Distinct) :
      ∀ e ∈ alter key empty (Tree.insert r qs) l, e.2.Distinct := by
    intro e he
    rcases mem_alter he with he | he | ⟨sub, hsub, he⟩
    · exact hl e he
    · exact he ▸ ih distinct_empty
    · exact he ▸ ih (hl _ hsub)
  induction qs generalizing t with
  | nil =>
      obtain ⟨hroutes, hstatics, hparams, hstatic, hparam⟩ := h
      exact .node (nodup_keys_alter hroutes) hstatics hparams hstatic hparam
  | cons q qs ih =>
      obtain ⟨hroutes, hstatics, hparams, hstatic, hparam⟩ := h
      cases q with
      | static s =>
          exact .node hroutes (nodup_keys_alter hstatics) hparams (hentries ih hstatic) hparam
      | param n =>
          exact .node hroutes hstatics (nodup_keys_alter hparams) hstatic (hentries ih hparam)

/-! ### Search -/

theorem search_nil {m : Method} {t : Tree} :
    t.search m [] = (t.routes.lookup m).map fun r => (r, []) := by
  rfl

theorem search_cons {m : Method} {s : String} {ss : List String} {t : Tree} :
    t.search m (s :: ss) = ((t.child (.static s)).bind (search m ss)).or
      (t.params.findSome? fun e =>
        (search m ss e.2).map fun (r, bound) => (r, (e.1, percentDecode s) :: bound)) := by
  rfl

theorem search_params_of_mem {m : Method} {s : String} {ss : List String} {t sub : Tree}
    {name : String} (hmem : (name, sub) ∈ t.params) (hfound : (sub.search m ss).isSome) :
    (t.search m (s :: ss)).isSome := by
  rw [search_cons, Option.isSome_or, Bool.or_eq_true, List.isSome_findSome?, List.any_eq_true]
  refine Or.inr ⟨(name, sub), hmem, ?_⟩
  rw [Option.isSome_map]
  exact hfound

theorem isSome_search {m : Method} {ps : List Segment} {ss : List String} {t : Tree}
    (hfits : fits ps ss = true) (hstored : (t.get? m ps).isSome) : (t.search m ss).isSome := by
  induction ss generalizing ps t with
  | nil =>
      rw [fits_nil_right] at hfits
      subst hfits
      rw [search_nil, Option.isSome_map]
      exact hstored
  | cons s ss ih =>
      cases ps with
      | nil => simp at hfits
      | cons p ps =>
          rw [fits_cons] at hfits
          cases hchild : t.child p with
          | none => simp [hchild] at hstored
          | some sub =>
              rw [get?_cons, hchild, Option.bind_some] at hstored
              have hfound : (sub.search m ss).isSome := ih hfits.2 hstored
              cases p with
              | static text =>
                  have htext : text = s := by simpa [Segment.takes] using hfits.1
                  subst htext
                  rw [search_cons, hchild, Option.bind_some, Option.isSome_or, hfound]
                  rfl
              | param name => exact search_params_of_mem (mem_of_lookup hchild) hfound

/-- Where a search that found something went: to the static child, or, when that led nowhere, to
the first parameter that did not. -/
theorem search_cons_cases {m : Method} {s : String} {ss : List String} {t : Tree} {r : Route}
    {bound : List (String × String)} (h : t.search m (s :: ss) = some (r, bound)) :
    (∃ sub, t.child (.static s) = some sub ∧ sub.search m ss = some (r, bound)) ∨
      ∃ name sub rest before after, bound = (name, percentDecode s) :: rest
        ∧ t.params = before ++ (name, sub) :: after ∧ sub.search m ss = some (r, rest)
        ∧ (∀ sub', t.child (.static s) = some sub' → sub'.search m ss = none)
        ∧ ∀ e ∈ before, e.2.search m ss = none := by
  rw [search_cons, Option.or_eq_some_iff] at h
  rcases h with h | ⟨hnone, h⟩
  · exact Or.inl (Option.bind_eq_some_iff.1 h)
  · obtain ⟨before, ⟨name, sub⟩, after, hparams, hsub, hbefore⟩ := List.findSome?_eq_some_iff.1 h
    obtain ⟨⟨r', rest⟩, hsearch, heq⟩ := Option.map_eq_some_iff.1 hsub
    simp only [Prod.mk.injEq] at heq
    obtain ⟨rfl, rfl⟩ := heq
    refine Or.inr ⟨name, sub, rest, before, after, rfl, hparams, hsearch, ?_, ?_⟩
    · intro sub' hchild
      rw [hchild] at hnone
      exact hnone
    · intro e he
      exact Option.map_eq_none_iff.1 (hbefore e he)

/-- Whether a search tries the first pattern before the second. -/
inductive Before : Tree → List Segment → List Segment → Prop
  | static {t : Tree} {text name : String} {ps qs : List Segment} :
      Before t (.static text :: ps) (.param name :: qs)
  | params {t : Tree} {a b : String} {ps qs : List Segment} (hne : a ≠ b)
      (horder : [a, b].Sublist (t.params.map (·.1))) : Before t (.param a :: ps) (.param b :: qs)
  | under {t sub : Tree} {p : Segment} {ps qs : List Segment} (hchild : t.child p = some sub)
      (hsub : Before sub ps qs) : Before t (p :: ps) (p :: qs)

/-- Whether no stored pattern that fits is tried before this one. -/
def First (t : Tree) (m : Method) (ss : List String) (ps : List Segment) : Prop :=
  ∀ qs, fits qs ss = true → (t.get? m qs).isSome → qs ≠ ps → t.Before ps qs

theorem First.under {m : Method} {ss : List String} {t sub : Tree} {p : Segment}
    {ps qs : List Segment} (hsub : sub.First m ss ps) (hchild : t.child p = some sub)
    (hfits : fits qs ss = true) (hstored : (t.get? m (p :: qs)).isSome)
    (hne : p :: qs ≠ p :: ps) : t.Before (p :: ps) (p :: qs) := by
  rw [get?_cons, hchild, Option.bind_some] at hstored
  exact .under hchild (hsub qs hfits hstored fun heq => hne (heq ▸ rfl))

theorem First.static {m : Method} {s : String} {ss : List String} {t sub : Tree}
    {ps : List Segment} (hsub : sub.First m ss ps) (hchild : t.child (.static s) = some sub) :
    t.First m (s :: ss) (.static s :: ps) := by
  intro qs hfits hstored hne
  cases qs with
  | nil => simp at hfits
  | cons q qs =>
      rw [fits_cons] at hfits
      cases q with
      | param name => exact .static
      | static text =>
          have htext : text = s := by simpa [Segment.takes] using hfits.1
          subst htext
          exact hsub.under hchild hfits.2 hstored hne

theorem sublist_keys {α : Type} {l before after : List (String × α)} {e e' : String × α}
    (hl : l = before ++ e :: after) (hmem : e' ∈ l) (hne : e.1 ≠ e'.1) (hbefore : e' ∉ before) :
    [e.1, e'.1].Sublist (l.map (·.1)) := by
  have hafter : e' ∈ after := by
    rw [hl, List.mem_append, List.mem_cons] at hmem
    rcases hmem with hmem | hmem | hmem
    · exact absurd hmem hbefore
    · exact absurd (congrArg Prod.fst hmem).symm hne
    · exact hmem
  have hlast : [e'.1].Sublist (after.map (·.1)) :=
    List.singleton_sublist.2 (List.mem_map_of_mem (f := (·.1)) hafter)
  rw [hl, List.map_append, List.map_cons]
  exact (hlast.cons_cons e.1).trans (List.sublist_append_right _ _)

theorem First.param {m : Method} {s name : String} {ss : List String} {t sub : Tree}
    {ps : List Segment} {before after : List (String × Tree)} (hsub : sub.First m ss ps)
    (hchild : t.child (.param name) = some sub)
    (hparams : t.params = before ++ (name, sub) :: after)
    (hstatic : ∀ sub', t.child (.static s) = some sub' → sub'.search m ss = none)
    (hbefore : ∀ e ∈ before, e.2.search m ss = none) :
    t.First m (s :: ss) (.param name :: ps) := by
  intro qs hfits hstored hne
  cases qs with
  | nil => simp at hfits
  | cons q qs =>
      rw [fits_cons] at hfits
      cases hq : t.child q with
      | none => simp [hq] at hstored
      | some sub' =>
          have hfound : sub'.search m ss ≠ none := by
            rw [get?_cons, hq, Option.bind_some] at hstored
            exact Option.isSome_iff_ne_none.1 (isSome_search hfits.2 hstored)
          cases q with
          | static text =>
              have htext : text = s := by simpa [Segment.takes] using hfits.1
              subst htext
              exact absurd (hstatic sub' hq) hfound
          | param other =>
              by_cases hname : name = other
              · subst hname
                exact hsub.under hchild hfits.2 hstored hne
              · have hother : (other, sub') ∉ before := fun h => hfound (hbefore _ h)
                exact .params hname (sublist_keys hparams (mem_of_lookup hq) hname hother)

/-- A search ends at a stored pattern that fits, the first of those that do. -/
theorem search_eq_some {m : Method} {ss : List String} {t : Tree} {r : Route}
    {bound : List (String × String)} (ht : t.Distinct) (h : t.search m ss = some (r, bound)) :
    ∃ ps, fits ps ss = true ∧ t.get? m ps = some r ∧ bound = bindings ps ss
      ∧ t.First m ss ps := by
  induction ss generalizing t r bound with
  | nil =>
      rw [search_nil, Option.map_eq_some_iff] at h
      obtain ⟨r', hr, heq⟩ := h
      simp only [Prod.mk.injEq] at heq
      obtain ⟨rfl, rfl⟩ := heq
      refine ⟨[], by simp, hr, by simp, ?_⟩
      intro qs hfits _ hne
      exact absurd (fits_nil_right.1 hfits) hne
  | cons s ss ih =>
      rcases search_cons_cases h with ⟨sub, hchild, hsub⟩ |
        ⟨name, sub, rest, before, after, rfl, hparams, hsub, hstatic, hbefore⟩
      · obtain ⟨ps, hfits, hget, hbound, hfirst⟩ := ih (ht.child hchild) hsub
        refine ⟨.static s :: ps, ?_, ?_, ?_, hfirst.static hchild⟩
        · simp [Segment.takes, hfits]
        · rw [get?_cons, hchild, Option.bind_some, hget]
        · rw [bindings_cons, hbound, Segment.binding, List.nil_append]
      · have hmem : (name, sub) ∈ t.params := by simp [hparams]
        have hchild : t.child (.param name) = some sub := lookup_of_mem ht.nodup_params hmem
        obtain ⟨ps, hfits, hget, hbound, hfirst⟩ := ih (ht.child hchild) hsub
        refine ⟨.param name :: ps, ?_, ?_, ?_, hfirst.param hchild hparams hstatic hbefore⟩
        · simp [Segment.takes, hfits]
        · rw [get?_cons, hchild, Option.bind_some, hget]
        · rw [bindings_cons, hbound, Segment.binding, List.singleton_append]

end Tree

end ApiContracts.Routing

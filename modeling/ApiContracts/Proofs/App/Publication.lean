import ApiContracts.App.Registry
import ApiContracts.Proofs.Routing.Router

/-!
# Publication while requests are served

Several endpoints may be published at once: the steps of each call keep their order, and those of
different calls fall in any (`Interleaving`). A request reads the dispatcher after some of the steps
and the router after some, and nothing ties the two moments together.

Each call publishes the handler before the route, so in every order of the steps a route comes behind
a handler of its endpoint (`HandlersFirst`). That settles what a request can meet: a route it finds
has its handler in the dispatcher unless the endpoint got its first handler between the two moments.
The dispatcher is read first, so this can happen; were it read last, it could not.
-/

namespace ApiContracts

open Http Routing

/-- The orders in which the steps of several calls may be taken. -/
inductive Interleaving {α : Type} : List (List α) → List α → Prop
  | done {calls : List (List α)} (h : ∀ call ∈ calls, call = []) : Interleaving calls []
  | step {before after : List (List α)} {x : α} {call steps : List α}
      (h : Interleaving (before ++ call :: after) steps) :
      Interleaving (before ++ (x :: call) :: after) (x :: steps)

/-- Whether a step gives an endpoint a handler. -/
def Publication.handles (endpoint : String) : Publication → Bool
  | .handler e _ => e == endpoint
  | .route _ => false
  | .middleware _ => false

def Publication.route? : Publication → Option Route
  | .route r => some r
  | .handler _ _ => none
  | .middleware _ => none

theorem Publication.route?_eq_some {p : Publication} {r : Route} :
    p.route? = some r ↔ p = .route r := by
  cases p <;> simp [Publication.route?]

namespace Registry

/-! ### The order of the steps -/

/-- Whether every route among the steps comes behind a handler of its endpoint; `held` are the
endpoints that have one from the start. -/
def HandlersFirst (held : String → Prop) : List Publication → Prop
  | [] => True
  | p :: steps => (∀ r, p = .route r → held r.endpoint)
      ∧ HandlersFirst (fun e => held e ∨ p.handles e = true) steps

theorem HandlersFirst.mono {held held' : String → Prop} {steps : List Publication}
    (hheld : ∀ e, held e → held' e) (h : HandlersFirst held steps) : HandlersFirst held' steps := by
  induction steps generalizing held held' with
  | nil => trivial
  | cons p steps ih =>
      refine ⟨fun r hr => hheld _ (h.1 r hr), ih ?_ h.2⟩
      intro e he
      exact he.imp_left (hheld e)

theorem handlersFirst_implementing (held : String → Prop) (k : EndpointKey) (h : Handler) :
    HandlersFirst held (implementing k h) := by
  refine ⟨by simp, ?_, trivial⟩
  intro r hr
  cases hr
  exact Or.inr (by simp [Publication.handles, EndpointKey.text])

/-- A step of one call gives the others no less than they had. -/
theorem handlersFirst_of_interleaving {held : String → Prop} {calls : List (List Publication)}
    {steps : List Publication} (h : Interleaving calls steps)
    (hcalls : ∀ call ∈ calls, HandlersFirst held call) : HandlersFirst held steps := by
  induction h generalizing held with
  | done _ => trivial
  | @step before after p call steps _ ih =>
      have hcall : HandlersFirst held (p :: call) := hcalls _ (by simp)
      refine ⟨hcall.1, ih ?_⟩
      intro other hother
      rw [List.mem_append, List.mem_cons] at hother
      rcases hother with hother | rfl | hother
      · exact (hcalls other (by simp [hother])).mono fun e => Or.inl
      · exact hcall.2
      · exact (hcalls other (by simp [hother])).mono fun e => Or.inl

theorem HandlersFirst.take {held : String → Prop} {steps : List Publication} (n : Nat)
    (h : HandlersFirst held steps) : HandlersFirst held (steps.take n) := by
  induction steps generalizing held n with
  | nil => simpa using h
  | cons p steps ih =>
      cases n with
      | zero => trivial
      | succ n => exact ⟨h.1, ih n h.2⟩

theorem HandlersFirst.handles_of_mem {held : String → Prop} {steps : List Publication} {r : Route}
    (h : HandlersFirst held steps) (hr : .route r ∈ steps) :
    held r.endpoint ∨ ∃ p ∈ steps, p.handles r.endpoint = true := by
  induction steps generalizing held with
  | nil => simp at hr
  | cons p steps ih =>
      rcases List.mem_cons.1 hr with rfl | hr
      · exact Or.inl (h.1 r rfl)
      · rcases ih h.2 hr with (hheld | hp) | ⟨p', hp', hhandles⟩
        · exact Or.inl hheld
        · exact Or.inr ⟨p, List.mem_cons_self, hp⟩
        · exact Or.inr ⟨p', List.mem_cons_of_mem _ hp', hhandles⟩

/-! ### What the registry holds after steps -/

theorem holds_publish {g : Registry} {p : Publication} {e : String} :
    (g.publish p).dispatcher.holds e ↔ g.dispatcher.holds e ∨ p.handles e = true := by
  cases p with
  | handler endpoint h =>
      by_cases he : e = endpoint
      · simp [publish, Dispatcher.addHandler, Dispatcher.holds, Publication.handles, he]
      · have he' : ¬ endpoint = e := fun heq => he heq.symm
        simp [publish, Dispatcher.addHandler, Dispatcher.holds, Publication.handles, he, he']
  | route r => simp [publish, Publication.handles]
  | middleware m =>
      simp [publish, Dispatcher.addMiddleware, Dispatcher.holds, Publication.handles]

theorem holds_publishAll {g : Registry} {steps : List Publication} {e : String} :
    (g.publishAll steps).dispatcher.holds e
      ↔ g.dispatcher.holds e ∨ ∃ p ∈ steps, p.handles e = true := by
  induction steps generalizing g with
  | nil => simp [publishAll]
  | cons p steps ih =>
      change (((g.publish p).publishAll steps).dispatcher.holds e = true) ↔ _
      rw [ih, holds_publish, List.exists_mem_cons_iff, or_assoc]

theorem router_publishAll {g : Registry} {steps : List Publication} :
    (g.publishAll steps).router = (steps.filterMap (·.route?)).foldl Router.insert g.router := by
  induction steps generalizing g with
  | nil => rfl
  | cons p steps ih =>
      change ((g.publish p).publishAll steps).router = _
      rw [ih]
      cases p <;> rfl

def fresh (middlewares : List Middleware) : Registry := { dispatcher := { middlewares } }

def after (middlewares : List Middleware) (steps : List Publication) (n : Nat) : Registry :=
  (fresh middlewares).publishAll (steps.take n)

/-- The place of the step by which an endpoint first has a handler. -/
def handledAt (endpoint : String) (steps : List Publication) : Option Nat :=
  steps.findIdx? (·.handles endpoint)

theorem exists_handles_take {steps : List Publication} {e : String} {n : Nat} :
    (∃ p ∈ steps.take n, p.handles e = true) ↔ ∃ k, handledAt e steps = some k ∧ k < n := by
  rw [← List.any_eq_true, ← List.findIdx?_isSome, List.findIdx?_take, Option.bind_guard]
  rw [Option.isSome_iff_exists]
  simp only [Option.filter_eq_some_iff, decide_eq_true_eq]
  rfl

theorem holds_after {middlewares : List Middleware} {steps : List Publication} {e : String}
    {n : Nat} : (after middlewares steps n).dispatcher.holds e
      ↔ ∃ k, handledAt e steps = some k ∧ k < n := by
  rw [after, holds_publishAll, exists_handles_take]
  exact or_iff_right (by simp [fresh, Dispatcher.holds])

theorem handledAt_of_route {middlewares : List Middleware} {steps : List Publication} {n : Nat}
    {m : Method} {path : String} {found : Match}
    (hsteps : HandlersFirst (fun _ => False) steps)
    (hfound : (after middlewares steps n).router.route m path = some found) :
    ∃ k, handledAt found.route.endpoint steps = some k ∧ k < n := by
  rw [after, router_publishAll] at hfound
  change (Router.ofRoutes _).route m path = some found at hfound
  obtain ⟨_, hget, _⟩ := Router.route_eq_some hfound
  obtain ⟨_, _, hlatest⟩ := Router.get?_ofRoutes_eq_some hget
  obtain ⟨p, hp, hroute⟩ := List.mem_filterMap.1 hlatest.mem
  rw [Publication.route?_eq_some.1 hroute] at hp
  rcases (hsteps.take n).handles_of_mem hp with hheld | hhandles
  · exact hheld.elim
  · exact exists_handles_take.1 hhandles

/-! ### Serving between the steps -/

/-- Whether a request passes the hooks before it and finds a route that the dispatcher has no handler
for. -/
def Unserved (d : Dispatcher) (router : Router) (req : Request) : Prop :=
  (d.intercept req).1 = none
    ∧ ∃ found, router.route req.method req.path = some found ∧ d.dispatch found req = none

theorem dispatch_eq_none {d : Dispatcher} {found : Match} {req : Request} :
    d.dispatch found req = none ↔ ¬ d.holds found.route.endpoint := by
  simp [Dispatcher.dispatch, Dispatcher.holds]

theorem response_of_unserved {d : Dispatcher} {router : Router} {req : Request}
    (h : Unserved d router req) :
    (ApiContracts.serve d router req).response = (d.finish req (noHandler req)).1 := by
  obtain ⟨hearly, found, hfound, hnone⟩ := h
  simp only [ApiContracts.serve, hearly, answerRouted, hfound, hnone]

/-- A request meets a route without its handler exactly when the endpoint first gets a handler after
the dispatcher is read and before the router is. -/
theorem unserved_iff_handled_between (middlewares : List Middleware)
    (calls : List (EndpointKey × Handler)) (steps : List Publication)
    (hsteps : Interleaving (calls.map fun call => implementing call.1 call.2) steps) (i j : Nat)
    (req : Request) :
    (Unserved (after middlewares steps i).dispatcher (after middlewares steps j).router req
      ↔ ((after middlewares steps i).dispatcher.intercept req).1 = none
        ∧ ∃ found k, (after middlewares steps j).router.route req.method req.path = some found
          ∧ handledAt found.route.endpoint steps = some k ∧ i ≤ k ∧ k < j)
      ∧ (Unserved (after middlewares steps i).dispatcher (after middlewares steps j).router req →
          (ApiContracts.serve (after middlewares steps i).dispatcher
            (after middlewares steps j).router req).response
              = ((after middlewares steps i).dispatcher.finish req (noHandler req)).1) := by
  have hfirst : HandlersFirst (fun _ => False) steps := by
    refine handlersFirst_of_interleaving hsteps ?_
    intro call hcall
    obtain ⟨⟨k, h⟩, _, rfl⟩ := List.mem_map.1 hcall
    exact handlersFirst_implementing _ k h
  refine ⟨and_congr_right fun _ => ?_, response_of_unserved⟩
  constructor
  · rintro ⟨found, hfound, hnone⟩
    rw [dispatch_eq_none, holds_after] at hnone
    obtain ⟨k, hk, hkj⟩ := handledAt_of_route hfirst hfound
    refine ⟨found, k, hfound, hk, ?_, hkj⟩
    by_contra hki
    exact hnone ⟨k, hk, Nat.lt_of_not_le hki⟩
  · rintro ⟨found, k, hfound, hk, hik, _⟩
    refine ⟨found, hfound, ?_⟩
    rw [dispatch_eq_none, holds_after]
    rintro ⟨k', hk', hki⟩
    rw [hk, Option.some.injEq] at hk'
    omega

def pong : Handler := fun _ => .answered (.empty 200)

/-- The steps of two calls, the second of which is done between the two steps of the first. -/
def crossed : List Publication :=
  [.handler "GET /a" pong, .handler "GET /b" pong, .route ⟨.get, "/b"⟩, .route ⟨.get, "/a"⟩]

theorem interleaving_crossed :
    Interleaving [implementing ⟨.get, "/a"⟩ pong, implementing ⟨.get, "/b"⟩ pong] crossed := by
  refine @Interleaving.step _ [] [_] _ _ _ ?_
  refine @Interleaving.step _ [_] [] _ _ _ ?_
  refine @Interleaving.step _ [_] [] _ _ _ ?_
  refine @Interleaving.step _ [] [_] _ _ _ ?_
  exact .done (by simp)

theorem unserved_while_crossed :
    Interleaving [implementing ⟨.get, "/a"⟩ pong, implementing ⟨.get, "/b"⟩ pong] crossed
      ∧ Unserved (after [] crossed 1).dispatcher (after [] crossed 3).router { path := "/b" }
      ∧ (ApiContracts.serve (after [] crossed 1).dispatcher (after [] crossed 3).router
          { path := "/b" }).response = noHandler { path := "/b" } := by
  have hrule := unserved_iff_handled_between [] [(⟨.get, "/a"⟩, pong), (⟨.get, "/b"⟩, pong)] crossed
    interleaving_crossed 1 3 { path := "/b" }
  have hroute : ((after [] crossed 3).router.route .get "/b").map (·.route.endpoint)
      = some "GET /b" := by decide +kernel
  obtain ⟨found, hfound, hendpoint⟩ := Option.map_eq_some_iff.1 hroute
  have hplace : handledAt found.route.endpoint crossed = some 1 := by
    rw [hendpoint]
    decide +kernel
  have hunserved := hrule.1.2 ⟨rfl, found, 1, hfound, hplace, by omega, by omega⟩
  exact ⟨interleaving_crossed, hunserved, hrule.2 hunserved⟩

/-- Where the dispatcher is read before the first step of a call and the router behind its last, the
endpoint is found and not handled. -/
theorem route_found_without_handler :
    ∃ steps, Interleaving [implementing ⟨.get, "/a"⟩ pong] steps
      ∧ ((after [] steps 2).router.route .get "/a").isSome
      ∧ ¬ (after [] steps 0).dispatcher.holds "GET /a"
      ∧ (ApiContracts.serve (after [] steps 0).dispatcher (after [] steps 2).router
          { path := "/a" }).response = noHandler { path := "/a" } := by
  have hsteps : Interleaving [implementing ⟨.get, "/a"⟩ pong] (implementing ⟨.get, "/a"⟩ pong) := by
    refine @Interleaving.step _ [] [] _ _ _ ?_
    refine @Interleaving.step _ [] [] _ _ _ ?_
    exact .done (by simp)
  have hroute : ((after [] (implementing ⟨.get, "/a"⟩ pong) 2).router.route .get "/a").map
      (·.route.endpoint) = some "GET /a" := by decide +kernel
  have hnone : ¬ (after [] (implementing ⟨.get, "/a"⟩ pong) 0).dispatcher.holds "GET /a" := by
    decide +kernel
  obtain ⟨found, hfound, hendpoint⟩ := Option.map_eq_some_iff.1 hroute
  refine ⟨_, hsteps, by rw [hfound]; rfl, hnone, response_of_unserved ⟨rfl, found, hfound, ?_⟩⟩
  rw [dispatch_eq_none, hendpoint]
  exact hnone

end Registry

end ApiContracts

import ApiContracts.Proofs.App.Lifecycle
import ApiContracts.Proofs.App.Publication
import ApiContracts.Proofs.Service.Hooks

/-!
# Registrations, one after the other and at once

The dispatcher finds a handler by the text of its key and the router a route by its place, and the two are
written by separate steps. Where registrations follow one another, both keep the last one: the handler that
a routed request meets is that of the last registration of the key, and no later registration has the place
of the route. Where they are taken at once, their steps fall in any order that keeps the order of each
call, so routes come behind their handlers at every moment (`Registry.Consistent`), and in the end all that
was registered is there.
-/

namespace ApiContracts

open Routing Dispatcher

namespace App

/-! ### One after the other -/

/-- A request that is routed meets the handler of the last registration of its endpoint, and no later
registration has the method and the pattern of its route. -/
theorem latest_registration_handles {s : Settings} {actions : List Action} {req : Request} {found : Match}
    (hfound : (run { settings := s } actions).2.registry.router.route req.method req.path = some found) :
    let g := (run { settings := s } actions).2.registry
    ∃ before k op after, registered (run { settings := s } actions).1 = before ++ (k, op) :: after
      ∧ k.text = found.route.endpoint
      ∧ (∀ later ∈ after, later.1.text ≠ found.route.endpoint)
      ∧ (∀ later ∈ after,
          ¬ (later.1.route.method = found.route.method ∧ later.1.route.pattern = found.route.pattern))
      ∧ g.dispatcher.dispatch found req = some (answerOf (op.handler (routed found req)), routed found req)
      ∧ (Passes g.dispatcher req →
          (g.serve req).calls
              = beforeCalls g.dispatcher.middlewares req ++ [.handler found.route.endpoint (routed found req)]
                ++ afterCalls g.dispatcher.middlewares (routed found req)
                  (answerOf (op.handler (routed found req)))
            ∧ (g.serve req).response
              = behind g.dispatcher.middlewares (routed found req)
                  (answerOf (op.handler (routed found req)))) := by
  intro g
  obtain ⟨before, k, op, after, hregistered, hk, hplaces, hhandler⟩ :=
    (reflects_run s actions).registered_of_route hfound
  refine ⟨before, k, op, after, hregistered, congrArg Route.endpoint hk, ?_, ?_, ?_, ?_⟩
  · intro later hlater htext
    apply hplaces later hlater
    exact congrArg Route.place (Route.endpoint_injective htext)
  · intro later hlater hsame
    exact hplaces later hlater (Prod.ext hsame.1 hsame.2)
  · rw [dispatch, hhandler]
    rfl
  · intro hpasses
    have hserve := serve_of_handler hpasses hfound hhandler
    exact ⟨congrArg Served.calls hserve, congrArg Served.response hserve⟩

def saying (text : String) : Operation := { business := fun _ => .returned (.str text) }

def reregistered : List Action :=
  [.start .connected none (.ok ()), .implement "GET /u/:id" (saying "first"),
    .implement "GET /u/{id}/" (saying "second"), .implement "GET u" (saying "none"), .stop,
    .start .connected none (.ok ()), .implement " get  /u/:id " (saying "third")]

theorem reregistered_handled :
    let g := (run { settings := {} } reregistered).2.registry
    ∃ found, g.router.route .get "/u/7" = some found ∧ found.route.endpoint = "GET /u/:id"
      ∧ g.dispatcher.dispatch found { path := "/u/7" }
        = some (.json 200 (.str "third"), routed found { path := "/u/7" })
      ∧ (g.serve { path := "/u/7" }).calls
        = [.before 0 { path := "/u/7" }, .before 1 { path := "/u/7" },
          .handler "GET /u/:id" (routed found { path := "/u/7" }),
          .after 0 (routed found { path := "/u/7" }) (.json 200 (.str "third")),
          .after 1 (routed found { path := "/u/7" })
            ((Response.json 200 (.str "third")).pushHeader "Access-Control-Allow-Origin: *")] := by
  intro g
  have hroute : (g.router.route .get "/u/7").map (·.route) = some ⟨.get, "/u/:id"⟩ := by decide +kernel
  obtain ⟨⟨route, params⟩, hfound, rfl⟩ := Option.map_eq_some_iff.1 hroute
  have hfirst : EndpointKey.ofText "GET /u/:id" = .ok ⟨.get, "/u/:id"⟩ := by decide +kernel
  have hsecond : EndpointKey.ofText "GET /u/{id}/" = .ok ⟨.get, "/u/\x7bid\x7d/"⟩ := by decide +kernel
  have hnone : EndpointKey.ofText "GET u" = .error (.malformedEndpoint "GET u") := by decide +kernel
  have hthird : EndpointKey.ofText " get  /u/:id " = .ok ⟨.get, "/u/:id"⟩ := by decide +kernel
  have hregistered : registered (run { settings := {} } reregistered).1
      = [(⟨.get, "/u/:id"⟩, saying "first"), (⟨.get, "/u/\x7bid\x7d/"⟩, saying "second"),
        (⟨.get, "/u/:id"⟩, saying "third")] := by
    simp [reregistered, run, perform, startInSteps, settled, implement, stop, withDispatcher,
      Network.connected, hfirst, hsecond, hnone, hthird, registered, Event.registered?, Except.map,
      Except.toOption]
  obtain ⟨before, k, op, after, hsplit, hkey, hlater, -, hdispatch, hserve⟩ :=
    @latest_registration_handles {} reregistered { path := "/u/7" } _ hfound
  have hop : op = saying "third" := by
    rw [hregistered] at hsplit
    have hlast := congrArg List.getLast? hsplit
    rcases List.eq_nil_or_concat' after with rfl | ⟨after, last, rfl⟩
    · rw [List.getLast?_concat] at hlast
      exact (congrArg Prod.snd (Option.some.inj hlast)).symm
    · rw [← List.cons_append, ← List.append_assoc, List.getLast?_concat] at hlast
      exact absurd (congrArg (·.1.text) (Option.some.inj hlast).symm) (hlater last (by simp))
  rw [hop] at hdispatch hserve
  have hpasses : Passes g.dispatcher { path := "/u/7" } := passes_iff.2 rfl
  exact ⟨_, hfound, rfl, hdispatch, (hserve hpasses).1⟩

end App

/-! ### At once -/

theorem perm_of_interleaving {α : Type} {calls : List (List α)} {steps : List α}
    (h : Interleaving calls steps) : steps.Perm calls.flatten := by
  induction h with
  | done hall => rw [List.flatten_eq_nil_iff.2 hall]
  | @step before after x call steps _ ih =>
      rw [List.flatten_append, List.flatten_cons] at ih ⊢
      exact (ih.cons x).trans List.perm_middle.symm

namespace Registry

/-- Whether a router holds these routes and the dispatcher a handler for each. -/
structure Consistent (g : Registry) (rs : List Route) : Prop where
  router : g.router = .ofRoutes rs
  held : ∀ r ∈ rs, g.dispatcher.holds r.endpoint = true

variable {g : Registry} {rs : List Route} {steps : List Publication}

theorem Consistent.publish {p : Publication} (h : g.Consistent rs)
    (hp : ∀ r, p = .route r → g.dispatcher.holds r.endpoint = true) :
    (g.publish p).Consistent (rs ++ p.route?.toList) where
  router := by
    cases p with
    | handler | middleware => simpa [Publication.route?, Registry.publish] using h.router
    | route r => simp [Publication.route?, Registry.publish, h.router, Router.ofRoutes_concat]
  held r hr := by
    rw [holds_publish]
    rcases List.mem_append.1 hr with hr | hr
    · exact Or.inl (h.held r hr)
    · rw [Option.mem_toList, Publication.route?_eq_some] at hr
      exact Or.inl (hp r hr)

theorem Consistent.publishAll (h : g.Consistent rs)
    (hsteps : HandlersFirst (fun e => g.dispatcher.holds e = true) steps) :
    (g.publishAll steps).Consistent (rs ++ steps.filterMap (·.route?)) := by
  induction steps generalizing g rs with
  | nil => simpa [Registry.publishAll] using h
  | cons p steps ih =>
      have hrest : HandlersFirst (fun e => (g.publish p).dispatcher.holds e = true) steps :=
        hsteps.2.mono fun e he => holds_publish.2 he
      have hafter := ih (h.publish hsteps.1) hrest
      rw [List.append_assoc] at hafter
      rw [List.filterMap_cons]
      cases hroute : p.route? <;> simpa [hroute, Registry.publishAll] using hafter

theorem Consistent.of_listed (h : g.Consistent rs) {key : String} (hkey : key ∈ g.router.endpoints) :
    g.dispatcher.holds key = true := by
  rw [h.router, Router.endpoints_ofRoutes, List.mem_dedup] at hkey
  obtain ⟨r, hr, rfl⟩ := List.mem_map.1 hkey
  exact h.held r hr

theorem Consistent.of_route (h : g.Consistent rs) {m : Http.Method} {path : String} {found : Match}
    (hfound : g.router.route m path = some found) : g.dispatcher.holds found.route.endpoint = true := by
  rw [h.router] at hfound
  obtain ⟨-, hget, -, -⟩ := Router.route_eq_some hfound
  obtain ⟨-, -, hlatest⟩ := Router.get?_ofRoutes_eq_some hget
  exact h.held _ hlatest.mem

end Registry

def Publication.middleware? : Publication → Option Middleware
  | .middleware m => some m
  | .handler _ _ => none
  | .route _ => none

theorem Registry.middlewares_publishAll {g : Registry} {steps : List Publication} :
    (g.publishAll steps).dispatcher.middlewares
      = g.dispatcher.middlewares ++ steps.filterMap (·.middleware?) := by
  induction steps generalizing g with
  | nil => simp [publishAll]
  | cons p steps ih =>
      show ((g.publish p).publishAll steps).dispatcher.middlewares = _
      rw [ih]
      cases p <;> simp [publish, Dispatcher.addHandler, Dispatcher.addMiddleware, Publication.middleware?]

namespace App

/-- A call that a running application takes while others are on their way. -/
inductive Update where
  | implement (key : String) (op : Operation)
  | addMiddleware (m : Middleware)

namespace Update

def action : Update → Action
  | implement key op => .implement key op
  | addMiddleware m => .addMiddleware m

/-- The steps of a call, in order; a key that cannot be read has none. -/
def steps : Update → List Publication
  | implement key op =>
    match EndpointKey.ofText key with
    | .ok k => Registry.implementing k op.handler
    | .error _ => []
  | addMiddleware m => [.middleware m]

def event (app : App) (u : Update) : Event := ⟨u.action, (app.perform u.action).1⟩

variable {app : App} {u : Update}

/-- A call that nothing comes between takes its steps on the registry as it finds it. -/
theorem perform_action (hrunning : app.running = true) (u : Update) (g : Registry) :
    { app with registry := g }.perform u.action
      = ((u.event app).fault, { app with registry := g.publishAll u.steps }) := by
  cases u with
  | addMiddleware m => rfl
  | implement key op =>
      obtain ⟨settings, registry, running, builtIn⟩ := app
      obtain rfl : running = true := hrunning
      cases hk : EndpointKey.ofText key <;>
        simp [action, steps, event, perform, App.implement, hk, Except.map, settled, Registry.publishAll]

theorem handlersFirst_steps (held : String → Prop) (u : Update) : Registry.HandlersFirst held u.steps := by
  cases u with
  | addMiddleware m => exact ⟨by simp, trivial⟩
  | implement key op =>
      rw [steps]
      split
      · exact Registry.handlersFirst_implementing held _ _
      · trivial

theorem routes_steps (hrunning : app.running = true) (u : Update) :
    u.steps.filterMap (·.route?) = (u.event app).registered?.toList.map (·.1.route) := by
  cases u with
  | addMiddleware m => rfl
  | implement key op =>
      cases hk : EndpointKey.ofText key <;>
        simp [action, steps, event, perform, App.implement, hrunning, hk, Except.map, Except.toOption,
          settled, Event.registered?, Registry.implementing, Publication.route?]

theorem middlewares_steps (app : App) (u : Update) :
    u.steps.filterMap (·.middleware?) = (u.event app).added?.toList := by
  cases u with
  | addMiddleware m => rfl
  | implement key op =>
      cases hk : EndpointKey.ofText key <;>
        simp [action, steps, event, hk, Event.added?, Registry.implementing, Publication.middleware?]

theorem exists_handles_steps {key : String} :
    (∃ p ∈ u.steps, p.handles key = true)
      ↔ ∃ p ∈ u.steps, ∃ r, p.route? = some r ∧ r.endpoint = key := by
  cases u with
  | addMiddleware m => simp [steps, Publication.handles, Publication.route?]
  | implement key' op =>
      cases hk : EndpointKey.ofText key' <;>
        simp [steps, hk, Registry.implementing, Publication.handles, Publication.route?, EndpointKey.text]

end Update

variable {app : App} {updates : List Update} {taken : List Publication}

/-- What the steps of all calls publish is what their events tell, if it is so for each call. -/
theorem filterMap_updates {α : Type} {published : Publication → Option α} (told : Event → List α)
    (h : ∀ u : Update, u.steps.filterMap published = told (u.event app)) (updates : List Update) :
    (updates.map Update.steps).flatten.filterMap published
      = (updates.map (Update.event app)).flatMap told := by
  induction updates with
  | nil => rfl
  | cons u rest ih =>
      rw [List.map_cons, List.flatten_cons, List.filterMap_append, h, ih, List.map_cons, List.flatMap_cons]

theorem routes_updates (hrunning : app.running = true) (updates : List Update) :
    (updates.map Update.steps).flatten.filterMap (·.route?)
      = (registered (updates.map (Update.event app))).map (·.1.route) := by
  rw [filterMap_updates (fun e => e.registered?.toList.map (·.1.route)) (Update.routes_steps hrunning),
    registered, List.filterMap_eq_flatMap_toList, List.map_flatMap]

theorem middlewares_updates (app : App) (updates : List Update) :
    (updates.map Update.steps).flatten.filterMap (·.middleware?)
      = added (updates.map (Update.event app)) := by
  rw [filterMap_updates (·.added?.toList) (Update.middlewares_steps app), added,
    List.filterMap_eq_flatMap_toList]

def keys (log : List Event) : List String := (registered log).map (·.1.text)

theorem keys_append (log later : List Event) : keys (log ++ later) = keys log ++ keys later := by
  rw [keys, registered, List.filterMap_append, List.map_append]
  rfl

theorem Reflects.holds_iff {s : Settings} {log : List Event} {key : String} (h : Reflects s log app) :
    app.registry.dispatcher.holds key = true ↔ key ∈ keys log := by
  rw [Dispatcher.holds, h.handlers, Option.isSome_map, lastOf?, Option.isSome_map, List.find?_isSome]
  simp [keys]

theorem Reflects.consistent {s : Settings} {log : List Event} (h : Reflects s log app) :
    app.registry.Consistent ((registered log).map (·.1.route)) where
  router := h.router
  held r hr := by
    obtain ⟨reg, hreg, rfl⟩ := List.mem_map.1 hr
    exact h.holds_iff.2 (List.mem_map_of_mem hreg)

theorem handlersFirst_of_updates {held : String → Prop}
    (htaken : Interleaving (updates.map Update.steps) taken) : Registry.HandlersFirst held taken := by
  apply Registry.handlersFirst_of_interleaving htaken
  intro call hcall
  obtain ⟨u, -, rfl⟩ := List.mem_map.1 hcall
  exact u.handlersFirst_steps held

theorem mem_routes_of_updates (hrunning : app.running = true)
    (htaken : Interleaving (updates.map Update.steps) taken) {key : String} :
    key ∈ (taken.filterMap (·.route?)).map (·.endpoint)
      ↔ key ∈ keys (updates.map (Update.event app)) := by
  have hroutes := ((perm_of_interleaving htaken).filterMap (·.route?)).map (·.endpoint)
  rw [hroutes.mem_iff, routes_updates hrunning, List.map_map]
  rfl

theorem exists_handles_updates (hrunning : app.running = true)
    (htaken : Interleaving (updates.map Update.steps) taken) {key : String} :
    (∃ p ∈ taken, p.handles key = true) ↔ key ∈ keys (updates.map (Update.event app)) := by
  have hmem (p : Publication) : p ∈ taken ↔ ∃ u ∈ updates, p ∈ u.steps := by
    rw [(perm_of_interleaving htaken).mem_iff, List.mem_flatten]
    simp
  rw [← mem_routes_of_updates hrunning htaken, List.mem_map]
  simp only [List.mem_filterMap, hmem]
  constructor
  · intro h
    obtain ⟨p, ⟨u, hu, hp⟩, hhandles⟩ := h
    obtain ⟨p', hp', r, hr, hkey⟩ := Update.exists_handles_steps.1 ⟨p, hp, hhandles⟩
    exact ⟨r, ⟨p', ⟨u, hu, hp'⟩, hr⟩, hkey⟩
  · intro h
    obtain ⟨r, ⟨p, ⟨u, hu, hp⟩, hr⟩, hkey⟩ := h
    obtain ⟨p', hp', hhandles⟩ := Update.exists_handles_steps.2 ⟨p, hp, r, hr, hkey⟩
    exact ⟨p', ⟨u, hu, hp'⟩, hhandles⟩

/-- Any number of calls at once on an application that runs. What a call does is its steps, which change the
registry as they find it. Whenever some of the steps are done, everything listed or routed has its handler.
When all are done, the handlers and the list have the keys that were registered, on the list no key twice, and
the middleware added stands behind what was there, each as often as it was added. -/
theorem concurrent_updates_kept {s : Settings} {actions : List Action}
    (hrunning : (run { settings := s } actions).2.running = true)
    (htaken : Interleaving (updates.map Update.steps) taken) :
    let log := (run { settings := s } actions).1
    let app := (run { settings := s } actions).2
    let events := updates.map (Update.event app)
    (∀ u ∈ updates, ∀ g, { app with registry := g }.perform u.action
        = ((u.event app).fault, { app with registry := g.publishAll u.steps }))
      ∧ (∀ n, let g := app.registry.publishAll (taken.take n)
          (∀ key ∈ g.router.endpoints, g.dispatcher.holds key = true)
            ∧ ∀ m path found, g.router.route m path = some found →
                g.dispatcher.holds found.route.endpoint = true)
      ∧ let g := app.registry.publishAll taken
        (∀ key, key ∈ g.dispatcher.handlers.keys ↔ key ∈ keys (log ++ events))
          ∧ (∀ key, key ∈ g.router.endpoints ↔ key ∈ keys (log ++ events))
          ∧ g.router.endpoints.Nodup
          ∧ ∃ order, order.Perm (added events)
              ∧ g.dispatcher.middlewares = builtIns ++ added log ++ order := by
  intro log app events
  have h := reflects_run s actions
  have hfirst : Registry.HandlersFirst (fun e => app.registry.dispatcher.holds e = true) taken :=
    handlersFirst_of_updates htaken
  have hall := h.consistent.publishAll hfirst
  have hendpoints : (app.registry.publishAll taken).router.endpoints
      = (((registered log).map (·.1.route) ++ taken.filterMap (·.route?)).map Route.endpoint).dedup := by
    rw [hall.router, Router.endpoints_ofRoutes]
  refine ⟨fun u _ g => u.perform_action hrunning g, ?_, ?_, ?_, ?_, ?_⟩
  · intro n
    have hsome := h.consistent.publishAll (hfirst.take n)
    exact ⟨fun key hkey => hsome.of_listed hkey, fun m path found hfound => hsome.of_route hfound⟩
  · intro key
    rw [keys_append, List.mem_append, ← h.holds_iff, ← exists_handles_updates hrunning htaken,
      ← Registry.holds_publishAll]
    exact Table.mem_keys_iff
  · intro key
    rw [hendpoints, List.mem_dedup, List.map_append, List.mem_append, mem_routes_of_updates hrunning htaken,
      keys_append, List.mem_append, List.map_map]
    rfl
  · rw [hendpoints]
    exact List.nodup_dedup _
  · refine ⟨taken.filterMap (·.middleware?), ?_, ?_⟩
    · have horder := (perm_of_interleaving htaken).filterMap (·.middleware?)
      rwa [middlewares_updates app] at horder
    · have hstarted : Started log := started_of_runningAfter (h.running.1 hrunning)
      rw [Registry.middlewares_publishAll, h.middlewares, if_pos hstarted]

def opened : List Action := [.start .connected none (.ok ()), .implement "GET /a" (saying "old")]

/-- The endpoint again, its place in another spelling, a key that is refused, and a hook. -/
def atOnce : List Update :=
  [.implement "GET /a" (saying "new"), .implement "get /a/" (saying "other"),
    .implement "GET a" (saying "none"), .addMiddleware marked]

def inTurn : List Publication :=
  [.handler "GET /a" (saying "new").handler, .handler "GET /a/" (saying "other").handler,
    .route ⟨.get, "/a/"⟩, .middleware marked, .route ⟨.get, "/a"⟩]

theorem steps_atOnce : atOnce.map Update.steps
    = [Registry.implementing ⟨.get, "/a"⟩ (saying "new").handler,
      Registry.implementing ⟨.get, "/a/"⟩ (saying "other").handler, [], [.middleware marked]] := by
  have hnew : EndpointKey.ofText "GET /a" = .ok ⟨.get, "/a"⟩ := by decide +kernel
  have hother : EndpointKey.ofText "get /a/" = .ok ⟨.get, "/a/"⟩ := by decide +kernel
  have hnone : EndpointKey.ofText "GET a" = .error (.malformedEndpoint "GET a") := by decide +kernel
  simp only [atOnce, List.map_cons, List.map_nil, Update.steps, hnew, hother, hnone]

theorem interleaving_atOnce : Interleaving (atOnce.map Update.steps) inTurn := by
  rw [steps_atOnce]
  refine @Interleaving.step _ [] [_, _, _] _ _ _ ?_
  refine @Interleaving.step _ [_] [_, _] _ _ _ ?_
  refine @Interleaving.step _ [_] [_, _] _ _ _ ?_
  refine @Interleaving.step _ [_, _, _] [] _ _ _ ?_
  refine @Interleaving.step _ [] [_, _, _] _ _ _ ?_
  exact .done (by simp)

theorem atOnce_kept :
    let app := (run { settings := {} } opened).2
    let g := app.registry.publishAll inTurn
    (∀ n m path found, (app.registry.publishAll (inTurn.take n)).router.route m path = some found →
        (app.registry.publishAll (inTurn.take n)).dispatcher.holds found.route.endpoint = true)
      ∧ (∀ key, key ∈ g.dispatcher.handlers.keys ↔ key ∈ ["GET /a", "GET /a", "GET /a/"])
      ∧ (∀ key, key ∈ g.router.endpoints ↔ key ∈ ["GET /a", "GET /a", "GET /a/"])
      ∧ g.router.endpoints.Nodup
      ∧ ∃ order, order.Perm [marked] ∧ g.dispatcher.middlewares = [.permissive, .tracing] ++ order := by
  intro app g
  have hkeys : keys ((run { settings := {} } opened).1 ++ atOnce.map (Update.event app))
      = ["GET /a", "GET /a", "GET /a/"] := by decide +kernel
  obtain ⟨-, hmeanwhile, hhandlers, hlisted, hnodup, horder⟩ :=
    @concurrent_updates_kept atOnce inTurn {} opened rfl interleaving_atOnce
  rw [hkeys] at hhandlers hlisted
  exact ⟨fun n => (hmeanwhile n).2, hhandlers, hlisted, hnodup, horder⟩

end App

end ApiContracts

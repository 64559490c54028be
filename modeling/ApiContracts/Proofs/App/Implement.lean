import ApiContracts.App.Basic
import ApiContracts.Compile.RequestType
import ApiContracts.Proofs.App.EndpointKey
import ApiContracts.Proofs.Compile.Package
import ApiContracts.Proofs.Routing.Reachable

/-!
# Implementing the contracts of a description

A contract that compiles carries the verb and the path of its endpoint as they were declared, and nothing is
asked of the path. An application reads both from the key again. It refuses a key whose path does not start
with a slash, and it registers every other one under the path without blank characters at its ends. So the
key that a route reports is the key of its contract exactly when the path is bare, and then the server finds
the contract under it.
-/

namespace ApiContracts

open Compile Routing Text

namespace Compile

namespace ServerModule

/-- The contract that the look-up of a server finds under a key: its lines stand in the order of the contracts
and are tried one after the other. -/
def contractOf? (s : ServerModule) (key : String) : Option Contract :=
  s.contracts.find? fun c => c.endpoint == key

theorem contractOf?_eq_some {s : ServerModule} {key : String} {c : Contract}
    (h : (s.contracts.map (·.endpoint)).Nodup) :
    s.contractOf? key = some c ↔ c ∈ s.contracts ∧ c.endpoint = key := by
  exact find?_key_iff h

end ServerModule

end Compile

namespace App

variable {app : App} {key : String} {op : Operation}

theorem implement_of_running (h : app.running = true) :
    app.implement key op = (EndpointKey.ofText key).map fun k =>
      { app with registry := app.registry.publishAll (Registry.implementing k op.handler) } := by
  rw [implement, h]
  rfl

theorem implement_eq_error {fault : AppFault} (h : app.running = true) :
    app.implement key op = .error fault ↔ EndpointKey.ofText key = .error fault := by
  rw [implement_of_running h]
  cases EndpointKey.ofText key <;> simp [Except.map]

end App

/-- What an application makes of the contract of an endpoint, and the server of its key. -/
structure Compile.Contract.Received (c : Contract) (s : ServerModule) (e : Endpoint) : Prop where
  key : c.endpoint = e.key
  read : EndpointKey.ofText c.endpoint
    = if Rooted e.path then .ok ⟨e.verb, trimmed e.path⟩ else .error (.malformedEndpoint c.endpoint)
  implemented : ∀ (app : App) (op : Operation), app.running = true →
    ((app.implement c.endpoint op).isOk = true ↔ Rooted e.path)
  refused : ∀ (app : App) (op : Operation) (fault : AppFault), app.running = true →
    app.implement c.endpoint op = .error fault → fault = .malformedEndpoint c.endpoint
  routed : ∀ k, EndpointKey.ofText c.endpoint = .ok k → (k.route.endpoint = c.endpoint ↔ Bare e.path)
  found : ∀ key, s.contractOf? key = some c ↔ key = c.endpoint

theorem received_of_build? {lookups : Lookups} {config : Config} {e : Endpoint} {c : Contract}
    {s : ServerModule} (h : Contract.build? lookups config e = .ok c) (hc : c ∈ s.contracts)
    (hkeys : (s.contracts.map (·.endpoint)).Nodup) : c.Received s e := by
  have hkey : c.endpoint = e.key := Contract.endpoint_of_build? h
  have hread : EndpointKey.ofText c.endpoint
      = if Rooted e.path then .ok ⟨e.verb, trimmed e.path⟩
        else .error (.malformedEndpoint c.endpoint) := by
    rw [hkey]
    exact EndpointKey.ofText_key
  refine ⟨hkey, hread, ?_, ?_, ?_, ?_⟩
  · intro app op hrunning
    rw [App.implement_of_running hrunning, isOk_map, hread]
    split <;> simp [*]
  · intro app op fault hrunning hfault
    rw [App.implement_eq_error hrunning, hread] at hfault
    split at hfault
    · cases hfault
    · cases hfault
      rfl
  · intro k hk
    rw [hread] at hk
    split at hk
    · cases hk
      rw [hkey]
      exact EndpointKey.text_eq_key_iff
    · cases hk
  · intro key
    rw [ServerModule.contractOf?_eq_some hkeys, and_iff_right hc, eq_comm]

/-- The contracts of a description that compiles, served: an application takes a contract exactly when its
path starts with a slash behind blank characters and refuses every other key as malformed; the route then
reports the key of the contract, under which the server finds it, exactly when the path is bare. -/
theorem accepted_contracts_received {lookups : Lookups} {config : Config} {endpoints : List Endpoint}
    {p : Package} (h : Package.compile lookups config endpoints = .ok p) :
    ∃ contracts, p = Package.ofContracts config contracts
      ∧ List.Forall₂ (fun e c => c.Received ⟨config, contracts⟩ e) endpoints contracts := by
  obtain ⟨contracts, hcontracts, rfl⟩ := Package.compile_eq_ok.1 h
  refine ⟨contracts, rfl, ?_⟩
  have hbuilt := hcontracts.built
  rw [List.forall₂_iff_zip] at hbuilt ⊢
  refine ⟨hbuilt.1, ?_⟩
  intro e c hmem
  have hc : c ∈ contracts := (List.of_mem_zip hmem).2
  exact received_of_build? (s := ⟨config, contracts⟩) (hbuilt.2 hmem) hc hcontracts.nodup_endpoints

def mixed : List Endpoint :=
  [.answeringText .get "/user/:id", .answeringText .post "\t/b ", .answeringText .delete "user"]

theorem accepted_mixed_contracts_received :
    ∃ p a b c, Package.compile {} {} mixed = .ok p ∧ p = Package.ofContracts {} [a, b, c]
      ∧ EndpointKey.ofText a.endpoint = .ok ⟨.get, "/user/:id"⟩
      ∧ EndpointKey.ofText b.endpoint = .ok ⟨.post, "/b"⟩
      ∧ EndpointKey.ofText c.endpoint = .error (.malformedEndpoint "DELETE user")
      ∧ (ServerModule.mk {} [a, b, c]).contractOf? "GET /user/:id" = some a
      ∧ (ServerModule.mk {} [a, b, c]).contractOf? "POST /b" ≠ some b := by
  have hok : (Package.compile {} {} mixed).isOk = true := by decide +kernel
  obtain ⟨p, hp⟩ := isOk_iff.1 hok
  obtain ⟨contracts, rfl, hreceived⟩ := accepted_contracts_received hp
  obtain ⟨a, _, ha, hrest, rfl⟩ := List.forall₂_cons_left_iff.1 hreceived
  obtain ⟨b, _, hb, hrest, rfl⟩ := List.forall₂_cons_left_iff.1 hrest
  obtain ⟨c, _, hc, hrest, rfl⟩ := List.forall₂_cons_left_iff.1 hrest
  rw [List.forall₂_nil_left_iff] at hrest
  subst hrest
  refine ⟨_, a, b, c, hp, rfl, ?_, ?_, ?_, ?_, ?_⟩
  · rw [ha.read, ha.key]
    decide +kernel
  · rw [hb.read, hb.key]
    decide +kernel
  · rw [hc.read, hc.key]
    decide +kernel
  · rw [ha.found, ha.key]
    decide +kernel
  · rw [Ne, hb.found, hb.key]
    decide +kernel

/-- An accepted description with a contract that no application takes, and one that is routed under a key
of which the server knows nothing. -/
theorem accepted_contracts_unserved :
    ∃ p contracts, Package.compile {} {} [.answeringText .get "user", .answeringText .get "/a "] = .ok p
      ∧ p = Package.ofContracts {} contracts
      ∧ (∃ c ∈ contracts, EndpointKey.ofText c.endpoint = .error (.malformedEndpoint c.endpoint))
      ∧ ∃ c ∈ contracts, ∃ k, EndpointKey.ofText c.endpoint = .ok k
        ∧ k.route.endpoint ≠ c.endpoint
        ∧ (ServerModule.mk {} contracts).contractOf? k.route.endpoint = none := by
  have hok : (Package.compile {} {}
      [.answeringText .get "user", .answeringText .get "/a "]).isOk = true := by decide +kernel
  obtain ⟨p, hp⟩ := isOk_iff.1 hok
  obtain ⟨contracts, hcontracts, rfl⟩ := Package.compile_eq_ok.1 hp
  have hkeys : contracts.map (·.endpoint) = ["GET user", "GET /a "] := by
    rw [hcontracts.endpoints_eq]
    decide +kernel
  have hmalformed : "GET user" ∈ contracts.map (·.endpoint) := by
    rw [hkeys]
    exact List.mem_cons_self
  have hpadded : "GET /a " ∈ contracts.map (·.endpoint) := by
    rw [hkeys]
    exact List.mem_cons_of_mem _ List.mem_cons_self
  obtain ⟨c, hc, hckey⟩ := List.mem_map.1 hmalformed
  obtain ⟨d, hd, hdkey⟩ := List.mem_map.1 hpadded
  have hnone : (ServerModule.mk {} contracts).contractOf? "GET /a" = none := by
    rw [ServerModule.contractOf?, List.find?_eq_none]
    intro f hf heq
    have hmem : "GET /a" ∈ contracts.map (·.endpoint) :=
      List.mem_map.2 ⟨f, hf, eq_of_beq heq⟩
    rw [hkeys] at hmem
    revert hmem
    decide
  refine ⟨_, contracts, hp, rfl, ⟨c, hc, ?_⟩, d, hd, ⟨.get, "/a"⟩, ?_, ?_, hnone⟩
  · rw [hckey]
    decide +kernel
  · rw [hdkey]
    decide +kernel
  · rw [hdkey]
    decide +kernel

/-! ### All contracts, one after the other -/

namespace App

def implementAll (calls : List (String × Operation)) (app : App) : Except AppFault App :=
  calls.foldlM (fun app call => app.implement call.1 call.2) app

theorem implement_eq_ok {app : App} {key : String} {k : EndpointKey} (op : Operation)
    (hrunning : app.running = true) (hk : EndpointKey.ofText key = .ok k) :
    ∃ app', app.implement key op = .ok app' ∧ app'.running = true
      ∧ app'.registry.router = app.registry.router.insert k.route := by
  rw [implement_of_running hrunning, hk]
  exact ⟨_, rfl, hrunning, rfl⟩

theorem implementAll_eq_ok {calls : List (String × Operation)} {keys : List EndpointKey} {app : App}
    (hrunning : app.running = true)
    (hkeys : calls.map (fun call => EndpointKey.ofText call.1) = keys.map .ok) :
    ∃ app', app.implementAll calls = .ok app' ∧ app'.running = true
      ∧ app'.registry.router = (keys.map (·.route)).foldl Router.insert app.registry.router := by
  induction calls generalizing keys app with
  | nil =>
      obtain rfl : keys = [] := by simpa using hkeys.symm
      exact ⟨app, rfl, hrunning, rfl⟩
  | cons call calls ih =>
      cases keys with
      | nil => simp at hkeys
      | cons k keys =>
          rw [List.map_cons, List.map_cons, List.cons.injEq] at hkeys
          obtain ⟨app₁, himplement, hrunning₁, hrouter₁⟩ :=
            implement_eq_ok call.2 hrunning hkeys.1
          obtain ⟨app₂, hall, hrunning₂, hrouter₂⟩ := ih hrunning₁ hkeys.2
          refine ⟨app₂, ?_, hrunning₂, ?_⟩
          · rw [implementAll, List.foldlM_cons, himplement]
            exact hall
          · rw [hrouter₂, hrouter₁, List.map_cons, List.foldl_cons]

end App

def Endpoint.route (e : Endpoint) : Route := ⟨.ofVerb e.verb, e.path⟩

theorem ofText_key_of_bare {e : Endpoint} (hslash : e.path.toList.head? = some '/')
    (hbare : Bare e.path) : EndpointKey.ofText e.key = .ok ⟨e.verb, e.path⟩ := by
  have htrim : trim e.path.toList = e.path.toList := by
    have hlist := congrArg String.toList hbare
    rwa [trimmed, String.toList_ofList] at hlist
  have hrooted : Rooted e.path := by
    rw [Rooted, htrim]
    exact hslash
  rw [Endpoint.key, EndpointKey.ofText_key, if_pos hrooted, hbare]

theorem implementAll_of_bare {lookups : Lookups} {config : Config} {endpoints : List Endpoint}
    {contracts : List Contract} {app : App} {earlier : List Route} (ops : Contract → Operation)
    (h : Package.Contracts lookups config endpoints contracts)
    (hpaths : ∀ e ∈ endpoints, e.path.toList.head? = some '/' ∧ Bare e.path)
    (hrunning : app.running = true) (hrouter : app.registry.router = .ofRoutes earlier) :
    ∃ app', app.implementAll (contracts.map fun c => (c.endpoint, ops c)) = .ok app'
      ∧ app'.registry.router = .ofRoutes (earlier ++ endpoints.map Endpoint.route) := by
  have hread : contracts.map (fun c => EndpointKey.ofText c.endpoint)
      = endpoints.map fun e => EndpointKey.ofText e.key := by
    have hendpoints := congrArg (List.map EndpointKey.ofText) h.endpoints_eq
    simpa only [List.map_map, Function.comp_def] using hendpoints
  have hbare : ∀ e ∈ endpoints, EndpointKey.ofText e.key = .ok ⟨e.verb, e.path⟩ := by
    intro e he
    exact ofText_key_of_bare (hpaths e he).1 (hpaths e he).2
  have hkeys : (contracts.map fun c => (c.endpoint, ops c)).map (fun call => EndpointKey.ofText call.1)
      = (endpoints.map fun e => ⟨e.verb, e.path⟩).map .ok := by
    simp only [List.map_map, Function.comp_def]
    rw [hread]
    exact List.map_congr_left hbare
  obtain ⟨app', hall, -, hrouter'⟩ := App.implementAll_eq_ok hrunning hkeys
  refine ⟨app', hall, ?_⟩
  rw [hrouter', hrouter, Router.ofRoutes, Router.ofRoutes, List.foldl_append, List.map_map]
  rfl

/-- Endpoints of bare paths behind the routes that an application has: all are implemented, and one is
reached by a request exactly when no later one has its place and no other one shadows it. -/
theorem implemented_reached_iff {lookups : Lookups} {config : Config} {endpoints : List Endpoint}
    {p : Package} {app : App} {earlier : List Route} (ops : Contract → Operation)
    (h : Package.compile lookups config endpoints = .ok p)
    (hpaths : ∀ e ∈ endpoints, e.path.toList.head? = some '/' ∧ Bare e.path)
    (hrunning : app.running = true) (hrouter : app.registry.router = .ofRoutes earlier) :
    ∃ contracts app', p = Package.ofContracts config contracts
      ∧ app.implementAll (contracts.map fun c => (c.endpoint, ops c)) = .ok app'
      ∧ ∀ e ∈ endpoints,
          (∃ path found, e.route.Matches path
              ∧ app'.registry.router.route e.route.method path = some found
              ∧ found.route.endpoint = e.key)
            ↔ Router.Latest (earlier ++ endpoints.map Endpoint.route) e.route
              ∧ ¬ Router.Shadowed (earlier ++ endpoints.map Endpoint.route) e.route := by
  obtain ⟨contracts, hcontracts, rfl⟩ := Package.compile_eq_ok.1 h
  obtain ⟨app', hall, hroutes⟩ := implementAll_of_bare ops hcontracts hpaths hrunning hrouter
  refine ⟨contracts, app', rfl, hall, ?_⟩
  intro e _
  rw [← Router.reached_iff, hroutes]
  refine exists_congr fun path => exists_congr fun found => and_congr_right fun _ => ?_
  exact and_congr_right fun hroute => (Router.eq_route_iff_endpoint hroute).symm

def listening : App := App.started { settings := {} }

/-- Two spellings of one path with parameters of different names, the second of which came first, with
another method. -/
def crossed : List Endpoint :=
  [.answeringText .post "/users/{name}", .answeringText .get "/users/:id/posts",
    .answeringText .get "/users/{name}/posts/"]

theorem crossed_reached :
    ∃ p contracts app', Package.compile {} {} crossed = .ok p ∧ p = Package.ofContracts {} contracts
      ∧ listening.implementAll
          (contracts.map fun c => (c.endpoint, c.operation [] .returned)) = .ok app'
      ∧ (∃ path found, app'.registry.router.route .get path = some found
          ∧ found.route.endpoint = "GET /users/{name}/posts/")
      ∧ ¬ ∃ path found, Route.Matches ⟨.get, "/users/:id/posts"⟩ path
          ∧ app'.registry.router.route .get path = some found
          ∧ found.route.endpoint = "GET /users/:id/posts" := by
  have hok : (Package.compile {} {} crossed).isOk = true := by decide +kernel
  obtain ⟨p, hp⟩ := isOk_iff.1 hok
  have hpaths : ∀ e ∈ crossed, e.path.toList.head? = some '/' ∧ Bare e.path := by decide +kernel
  have hrouter : listening.registry.router = .ofRoutes [] := rfl
  obtain ⟨contracts, app', rfl, hall, hreached⟩ :=
    implemented_reached_iff (fun c => c.operation [] .returned) hp hpaths rfl hrouter
  refine ⟨_, contracts, app', hp, rfl, hall, ?_, ?_⟩
  · have hroute : ((Router.ofRoutes (crossed.map Endpoint.route)).route .get "/users/x/posts").map (·.route)
        = some ⟨.get, "/users/{name}/posts/"⟩ := by decide +kernel
    obtain ⟨found, hfound, heq⟩ := Option.map_eq_some_iff.1 hroute
    have hmatches : Route.Matches ⟨.get, "/users/{name}/posts/"⟩ "/users/x/posts" := by
      rw [matches_iff]
      decide +kernel
    have hlatest := Router.reached_iff.1 ⟨_, found, hmatches, hfound, heq⟩
    obtain ⟨path, found', -, hfound', hkey⟩ :=
      (hreached (.answeringText .get "/users/{name}/posts/") (by decide +kernel)).2 hlatest
    exact ⟨path, found', hfound', hkey⟩
  · intro h
    obtain ⟨-, hshadowed⟩ :=
      (hreached (.answeringText .get "/users/:id/posts") (by decide +kernel)).1 h
    apply hshadowed
    refine ⟨⟨.get, "/users/{name}/posts/"⟩, by decide +kernel, rfl, ?_, [.static "users"], "id", "name",
      [.static "posts"], [.static "posts"], by decide +kernel, by decide +kernel, by decide +kernel⟩
    intro path hmatches
    rw [matches_iff] at hmatches ⊢
    have havoids : Avoids "x" (pattern "/users/{name}/posts/") := by
      unfold Avoids
      decide +kernel
    exact fits_of_fits_filled havoids (by decide +kernel) hmatches

/-- Two endpoints of an accepted description with one place in the router: no request leads to the first. -/
theorem accepted_endpoint_unreached :
    ∃ p contracts app',
      Package.compile {} {} [.answeringText .get "/a", .answeringText .get "/a/"] = .ok p
      ∧ p = Package.ofContracts {} contracts
      ∧ listening.implementAll
          (contracts.map fun c => (c.endpoint, c.operation [] .returned)) = .ok app'
      ∧ ∀ path found, app'.registry.router.route .get path = some found →
          found.route.endpoint ≠ "GET /a" := by
  have hok : (Package.compile {} {}
      [.answeringText .get "/a", .answeringText .get "/a/"]).isOk = true := by decide +kernel
  obtain ⟨p, hp⟩ := isOk_iff.1 hok
  obtain ⟨contracts, hcontracts, rfl⟩ := Package.compile_eq_ok.1 hp
  have hrouter : listening.registry.router = .ofRoutes [] := rfl
  obtain ⟨app', hall, hroutes⟩ := implementAll_of_bare (fun c => c.operation [] .returned) hcontracts
    (by decide +kernel) rfl hrouter
  refine ⟨_, contracts, app', hp, rfl, hall, ?_⟩
  intro path found hroute hkey
  rw [hroutes] at hroute
  obtain ⟨-, hget, -, -⟩ := Router.route_eq_some hroute
  obtain ⟨hmethod, -, -⟩ := Router.get?_ofRoutes_eq_some hget
  have hfound : found.route = ⟨.get, "/a"⟩ := Route.eq_of_endpoint hmethod hkey
  rw [hfound] at hget
  revert hget
  decide +kernel

end ApiContracts

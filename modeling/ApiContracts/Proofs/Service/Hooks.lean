import ApiContracts.Service.Exchange
import Mathlib.Tactic.Common

/-!
# The hooks around a request

A request comes to its answer in one of five ways (`Ending`): a hook before it answers, no route leads
anywhere, the route has no handler, the handler answers, or it panics. `EndsIn` says when each one happens,
and exactly one does. Whichever it is, the calls made are the hooks before the request in the order of the
middleware, then the handler if there is one, then the hooks on the response, each of which gets what the
one in front of it made of the answer. A hook is a function of the request here, so it ends and does not
panic; a handler may.
-/

namespace ApiContracts

open Routing

/-- Whether a request carries nothing of a route yet. -/
def Request.Unrouted (req : Request) : Prop := req.endpoint = "" ∧ req.pathParams = []

/-- Whatever request is read off a message is served with no route on it. -/
theorem unrouted_of_head {m : Message} {req : Request} (h : m.head = .ok req) : req.Unrouted := by
  rw [Message.head] at h
  split at h
  · cases h
  · cases h
    exact ⟨rfl, rfl⟩

theorem Routing.Route.endpoint_ne_empty (r : Route) : r.endpoint ≠ "" := by
  intro hempty
  have hlist := congrArg String.toList hempty
  simp [Route.endpoint] at hlist

namespace Dispatcher

/-! ### The two rows of hooks -/

def behind (ms : List Middleware) (req : Request) (answer : Response) : Response :=
  ms.foldl (fun r m => m.after req r) answer

def beforeCalls (ms : List Middleware) (req : Request) : List Call :=
  (List.range ms.length).map fun n => .before n req

def afterCalls (ms : List Middleware) (req : Request) (answer : Response) : List Call :=
  (List.range ms.length).map fun n => .after n req (behind (ms.take n) req answer)

theorem beforeAll_eq (req : Request) (n : Nat) (ms : List Middleware) :
    beforeAll req n ms
      = (ms.findSome? (·.before req), (List.range ms.length).map fun i => .before (n + i) req) := by
  induction ms generalizing n with
  | nil => rfl
  | cons m rest ih =>
      have hplaces : (fun i => Call.before (n + 1 + i) req) = fun i => .before (n + (i + 1)) req := by
        funext i
        rw [Nat.add_assoc, Nat.add_comm 1 i]
      rw [beforeAll, ih, hplaces, List.findSome?_cons, List.length_cons, List.range_succ_eq_map,
        List.map_cons, List.map_map]
      cases m.before req <;> rfl

theorem afterAll_eq (req : Request) (n : Nat) (ms : List Middleware) (answer : Response) :
    afterAll req n ms answer
      = (behind ms req answer,
        (List.range ms.length).map fun i => .after (n + i) req (behind (ms.take i) req answer)) := by
  induction ms generalizing n answer with
  | nil => rfl
  | cons m rest ih =>
      have hplaces : (fun i => Call.after (n + 1 + i) req (behind (rest.take i) req (m.after req answer)))
          = fun i => .after (n + (i + 1)) req (behind ((m :: rest).take (i + 1)) req answer) := by
        funext i
        rw [Nat.add_assoc, Nat.add_comm 1 i]
        rfl
      rw [afterAll, ih, hplaces, List.length_cons, List.range_succ_eq_map, List.map_cons, List.map_map]
      rfl

theorem intercept_eq (d : Dispatcher) (req : Request) :
    d.intercept req = (d.middlewares.findSome? (·.before req), beforeCalls d.middlewares req) := by
  simp only [intercept, beforeAll_eq, Nat.zero_add, beforeCalls]

theorem finish_eq (d : Dispatcher) (req : Request) (answer : Response) :
    d.finish req answer = (behind d.middlewares req answer, afterCalls d.middlewares req answer) := by
  simp only [finish, afterAll_eq, Nat.zero_add, afterCalls]

end Dispatcher

open Dispatcher

/-! ### Ways to an answer -/

/-- How a request comes to its answer. -/
inductive Ending where
  | early (r : Response)
  | unrouted
  | unhandled (found : Match)
  | answered (found : Match) (r : Response)
  | panicked (found : Match) (message : Option String)

namespace Ending

def answer (req : Request) : Ending → Response
  | early r => r
  | unrouted => notFound req
  | unhandled _ => noHandler req
  | answered _ r => r
  | panicked _ message => .text 500 (message.getD "unknown panic")

def handled? : Ending → Option Match
  | answered found _ => some found
  | panicked found _ => some found
  | early _ | unrouted | unhandled _ => none

def seen (req : Request) (e : Ending) : Request := e.handled?.elim req (routed · req)

def handlerCalls (req : Request) (e : Ending) : List Call :=
  e.handled?.toList.map fun found => .handler found.route.endpoint (routed found req)

end Ending

/-- Whether no hook answers a request. -/
def Passes (d : Dispatcher) (req : Request) : Prop := ∀ m ∈ d.middlewares, m.before req = none

inductive EndsIn (d : Dispatcher) (router : Router) (req : Request) : Ending → Prop
  | early {passed rest : List Middleware} {m : Middleware} {r : Response}
      (hms : d.middlewares = passed ++ m :: rest) (hpassed : ∀ m' ∈ passed, m'.before req = none)
      (hr : m.before req = some r) : EndsIn d router req (.early r)
  | unrouted (hpasses : Passes d req) (hroute : router.route req.method req.path = none) :
      EndsIn d router req .unrouted
  | unhandled {found : Match} (hpasses : Passes d req)
      (hroute : router.route req.method req.path = some found)
      (hnone : d.handlers.get? found.route.endpoint = none) : EndsIn d router req (.unhandled found)
  | answered {found : Match} {h : Handler} {r : Response} (hpasses : Passes d req)
      (hroute : router.route req.method req.path = some found)
      (hheld : d.handlers.get? found.route.endpoint = some h) (hr : h (routed found req) = .answered r) :
      EndsIn d router req (.answered found r)
  | panicked {found : Match} {h : Handler} {message : Option String} (hpasses : Passes d req)
      (hroute : router.route req.method req.path = some found)
      (hheld : d.handlers.get? found.route.endpoint = some h)
      (hpanic : h (routed found req) = .panicked message) : EndsIn d router req (.panicked found message)

variable {d : Dispatcher} {router : Router} {req : Request} {e : Ending}

theorem passes_iff : Passes d req ↔ (d.intercept req).1 = none := by
  rw [intercept_eq, List.findSome?_eq_none_iff]
  rfl

theorem exists_endsIn (d : Dispatcher) (router : Router) (req : Request) : ∃ e, EndsIn d router req e := by
  cases hearly : d.middlewares.findSome? (·.before req) with
  | some r =>
      obtain ⟨passed, m, rest, hms, hr, hpassed⟩ := List.findSome?_eq_some_iff.1 hearly
      exact ⟨_, .early hms hpassed hr⟩
  | none =>
      have hpasses : Passes d req := List.findSome?_eq_none_iff.1 hearly
      cases hroute : router.route req.method req.path with
      | none => exact ⟨_, .unrouted hpasses hroute⟩
      | some found =>
          cases hheld : d.handlers.get? found.route.endpoint with
          | none => exact ⟨_, .unhandled hpasses hroute hheld⟩
          | some h =>
              cases hr : h (routed found req) with
              | answered r => exact ⟨_, .answered hpasses hroute hheld hr⟩
              | panicked message => exact ⟨_, .panicked hpasses hroute hheld hr⟩

namespace EndsIn

theorem intercept (h : EndsIn d router req e) :
    (d.intercept req).1 = match e with | .early r => some r | _ => none := by
  cases h with
  | early hms hpassed hr =>
      rw [intercept_eq, List.findSome?_eq_some_iff]
      exact ⟨_, _, _, hms, hr, hpassed⟩
  | unrouted hpasses | unhandled hpasses | answered hpasses | panicked hpasses => exact passes_iff.1 hpasses

theorem unique {e' : Ending} (h : EndsIn d router req e) (h' : EndsIn d router req e') : e' = e := by
  have hearly := h'.intercept.symm.trans h.intercept
  cases h with
  | early => cases h' <;> simp_all only [Option.some.injEq, reduceCtorEq]
  | unrouted | unhandled | answered | panicked => cases h' <;> grind

theorem answerRouted (h : EndsIn d router req e) (hpasses : Passes d req) :
    answerRouted d router req = (e.answer req, e.seen req, e.handlerCalls req) := by
  cases h with
  | early hms _ hr =>
      rw [hpasses _ (by simp [hms])] at hr
      cases hr
  | unrouted _ hroute => rw [ApiContracts.answerRouted, hroute]; rfl
  | unhandled _ hroute hnone => simp only [ApiContracts.answerRouted, hroute, dispatch, hnone]; rfl
  | answered _ hroute hheld hr =>
      simp only [ApiContracts.answerRouted, hroute, dispatch, hheld, Option.map_some, hr]
      rfl
  | panicked _ hroute hheld hr =>
      simp only [ApiContracts.answerRouted, hroute, dispatch, hheld, Option.map_some, hr]
      rfl

theorem serve (h : EndsIn d router req e) :
    serve d router req
      = ⟨behind d.middlewares (e.seen req) (e.answer req),
        beforeCalls d.middlewares req ++ e.handlerCalls req
          ++ afterCalls d.middlewares (e.seen req) (e.answer req)⟩ := by
  have hearly := h.intercept
  rw [intercept_eq] at hearly
  simp only at hearly
  simp only [ApiContracts.serve, intercept_eq, finish_eq, hearly]
  cases e with
  | early r => rfl
  | unrouted | unhandled | answered | panicked =>
      have hrouted := h.answerRouted (List.findSome?_eq_none_iff.1 hearly)
      simp only [hrouted]

theorem route_of_handled {found : Match} (h : EndsIn d router req e) (hfound : e.handled? = some found) :
    router.route req.method req.path = some found := by
  cases h with
  | early | unrouted | unhandled => cases hfound
  | answered _ hroute | panicked _ hroute =>
      cases hfound
      exact hroute

/-- The hooks on the response see the match of a route exactly when its handler was found. -/
theorem handled_iff {found : Match} (h : EndsIn d router req e) (hreq : req.Unrouted) :
    e.handled? = some found ↔ router.route req.method req.path = some found
      ∧ (e.seen req).endpoint = found.route.endpoint ∧ (e.seen req).pathParams = found.params := by
  constructor
  · intro hfound
    refine ⟨h.route_of_handled hfound, ?_⟩
    rw [Ending.seen, hfound]
    exact ⟨rfl, rfl⟩
  · intro hseen
    obtain ⟨hroute, hendpoint, -⟩ := hseen
    cases hhandled : e.handled? with
    | some found' => rw [← hroute, h.route_of_handled hhandled]
    | none =>
        rw [Ending.seen, hhandled, Option.elim_none, hreq.1] at hendpoint
        exact absurd hendpoint.symm found.route.endpoint_ne_empty

end EndsIn

theorem serve_of_handler {found : Match} {h : Handler} (hpasses : Passes d req)
    (hroute : router.route req.method req.path = some found)
    (hheld : d.handlers.get? found.route.endpoint = some h) :
    serve d router req
      = ⟨behind d.middlewares (routed found req) (answerOf (h (routed found req))),
        beforeCalls d.middlewares req ++ [.handler found.route.endpoint (routed found req)]
          ++ afterCalls d.middlewares (routed found req) (answerOf (h (routed found req)))⟩ := by
  cases hr : h (routed found req) with
  | answered r => exact (EndsIn.answered hpasses hroute hheld hr).serve
  | panicked message => exact (EndsIn.panicked hpasses hroute hheld hr).serve

theorem reject_eq (d : Dispatcher) (req : Request) (why : Rejection) :
    reject d req why
      = ⟨behind d.middlewares req why.toResponse, afterCalls d.middlewares req why.toResponse⟩ := by
  rw [reject, finish_eq]

/-- What the hooks make of a message whose head is read. If the body is refused, the answer to that goes through
the hooks on the response. Otherwise the request is served with no route on it, so that these hooks see the match
exactly when its handler was found. -/
theorem respond_behind_hooks {g : Registry} {limit : Nat} {m : Message} (h : m.head = .ok req) :
    (∀ why, readBody limit (req.header? "content-type") m.body = .error why →
      respond g limit m = behind g.dispatcher.middlewares req why.toResponse)
    ∧ ∀ body, readBody limit (req.header? "content-type") m.body = .ok body →
      ∃ e, EndsIn g.dispatcher g.router { req with body } e
        ∧ respond g limit m
          = behind g.dispatcher.middlewares (e.seen { req with body }) (e.answer { req with body })
        ∧ ∀ found, e.handled? = some found ↔ g.router.route req.method req.path = some found
          ∧ (e.seen { req with body }).endpoint = found.route.endpoint
          ∧ (e.seen { req with body }).pathParams = found.params := by
  constructor
  · intro why hbody
    simp only [respond, h, hbody, reject_eq]
  · intro body hbody
    obtain ⟨hendpoint, hparams⟩ := unrouted_of_head h
    obtain ⟨e, he⟩ := exists_endsIn g.dispatcher g.router { req with body }
    refine ⟨e, he, ?_, fun _ => he.handled_iff ⟨hendpoint, hparams⟩⟩
    simp only [respond, h, hbody, Registry.serve, he.serve]

/-- A request ends in one way. Every hook before it is called once and in order, then its handler if it has
one, then every hook on the response, on what the ones in front made of the answer. They see the match exactly
when its handler was found. Routes and handlers count for nothing once a hook has answered, and a request that
was refused meets the hooks on the response only. -/
theorem served_around_hooks (d : Dispatcher) (router : Router) (req : Request) (hreq : req.Unrouted) :
    (∃ e, EndsIn d router req e ∧ (∀ e', EndsIn d router req e' → e' = e)
      ∧ (serve d router req).calls
          = beforeCalls d.middlewares req ++ e.handlerCalls req
            ++ afterCalls d.middlewares (e.seen req) (e.answer req)
      ∧ (serve d router req).response = behind d.middlewares (e.seen req) (e.answer req)
      ∧ (e.handlerCalls req).length ≤ 1
      ∧ (∀ found, e.handled? = some found ↔ router.route req.method req.path = some found
          ∧ (e.seen req).endpoint = found.route.endpoint ∧ (e.seen req).pathParams = found.params)
      ∧ (e.handled? = none → (e.seen req).endpoint = "" ∧ (e.seen req).pathParams = [])
      ∧ ∀ r, e = .early r → ∀ handlers router',
          serve { d with handlers } router' req = serve d router req)
    ∧ ∀ why, (reject d req why).calls = afterCalls d.middlewares req why.toResponse
      ∧ (reject d req why).response = behind d.middlewares req why.toResponse := by
  constructor
  · obtain ⟨e, he⟩ := exists_endsIn d router req
    refine ⟨e, he, fun _ he' => he.unique he', by rw [he.serve], by rw [he.serve], ?_,
      fun _ => he.handled_iff hreq, ?_, ?_⟩
    · rw [Ending.handlerCalls, List.length_map]
      exact Option.length_toList_le
    · intro hnone
      rw [Ending.seen, hnone]
      exact hreq
    · intro r hr handlers router'
      subst hr
      cases he with
      | early hms hpassed hr =>
          have hother : EndsIn { d with handlers } router' req (.early r) := .early hms hpassed hr
          rw [hother.serve, (EndsIn.early hms hpassed hr : EndsIn d router req _).serve]
  · intro why
    rw [reject_eq]
    exact ⟨rfl, rfl⟩

/-- Hooks that leave a line on every response, the first of which answers preflight requests, and one that
answers every request. -/
def marking : List Middleware := [.permissive, { after := fun _ r => r.pushHeader "X-Seen: 1" }]

def closed : Middleware := { before := fun _ => some (.empty 503) }

theorem panic_and_preflight_served :
    let d : Dispatcher :=
      { handlers := .ofList [("GET /:a", fun _ => .panicked none)], middlewares := marking }
    let router : Router := .ofRoutes [⟨.get, "/:a"⟩]
    let req : Request := { path := "/x" }
    let seen : Request := { path := "/x", endpoint := "GET /:a", pathParams := [("a", "x")] }
    let asked : Request := { method := .options, path := "/x" }
    (serve d router req).calls
        = [.before 0 req, .before 1 req, .handler "GET /:a" seen, .after 0 seen (.text 500 "unknown panic"),
          .after 1 seen ((Response.text 500 "unknown panic").pushHeader "Access-Control-Allow-Origin: *")]
      ∧ (serve d router req).response.headers = ["Access-Control-Allow-Origin: *", "X-Seen: 1"]
      ∧ (serve { d with middlewares := marking ++ [closed] } router asked).calls
        = [.before 0 asked, .before 1 asked, .before 2 asked,
          .after 0 asked OriginPolicy.permissive.preflight,
          .after 1 asked (behind (marking.take 1) asked OriginPolicy.permissive.preflight),
          .after 2 asked (behind marking asked OriginPolicy.permissive.preflight)] := by
  intro d router req seen asked
  have hroute : (router.route .get "/x").map (fun found => (found.route, found.params))
      = some (⟨.get, "/:a"⟩, [("a", "x")]) := by decide +kernel
  obtain ⟨⟨route, params⟩, hfound, heq⟩ := Option.map_eq_some_iff.1 hroute
  cases heq
  have hpanic : EndsIn d router req (.panicked _ none) := .panicked (passes_iff.2 rfl) hfound rfl rfl
  have hearly : EndsIn { d with middlewares := marking ++ [closed] } router asked
      (.early OriginPolicy.permissive.preflight) :=
    @EndsIn.early _ _ _ [] [_, closed] .permissive _ rfl (by simp) rfl
  obtain ⟨⟨e, -, hunique, hcalls, hresponse, -⟩, -⟩ := served_around_hooks d router req ⟨rfl, rfl⟩
  obtain ⟨⟨e', -, hunique', hcalls', -⟩, -⟩ :=
    served_around_hooks { d with middlewares := marking ++ [closed] } router asked ⟨rfl, rfl⟩
  cases hunique _ hpanic
  cases hunique' _ hearly
  refine ⟨hcalls, ?_, hcalls'⟩
  rw [hresponse]
  decide +kernel

end ApiContracts

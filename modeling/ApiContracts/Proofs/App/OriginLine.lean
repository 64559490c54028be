import ApiContracts.Proofs.App.Lifecycle
import ApiContracts.Proofs.Service.Headers
import ApiContracts.Proofs.Service.Hooks
import ApiContracts.Proofs.Service.Operation

/-!
# The origin line of a response

Once an application has been started, the access policy stands in front of all middleware, and no later start,
stop or registration moves it. However a request comes to its answer, no two header lines of the answer have one
name; the policy adds its origin line unless there is one, and the hooks behind it leave no line out and add none
of a name that is there. So every response has one origin line. What is asked of the other middleware is
`AddsLines`, and the invariant of the dispatcher is `Guarded`, which also holds between the steps of several
calls that are made at once.
-/

namespace ApiContracts

open Text Dispatcher

/-- Whether the hooks of a middleware change headers by adding lines only, and answer requests with no two lines
of one name. -/
structure Middleware.AddsLines (m : Middleware) : Prop where
  after : ∀ req r, ∃ lines, (m.after req r).headers = (r.pushHeaders lines).headers
  before : ∀ req r, m.before req = some r → r.Distinct

/-- Whether a response has exactly one line for the origins that are allowed. -/
def Response.HasOriginOnce (r : Response) : Prop :=
  (r.headers.filter fun line => sameLetters (headerName line) OriginPolicy.originName).length = 1

theorem Operation.headers_of_answered {op : Operation} {req : Request} {r : Response}
    (h : op.handler req = .answered r) : r.headers = [] := by
  cases hread : op.read req with
  | error refusal =>
      rw [handler_of_error hread] at h
      cases h
      rfl
  | ok input =>
      rw [handler_of_ok hread] at h
      generalize op.business input = outcome at h
      have hresponds := responds_respond outcome
      rw [h] at hresponds
      cases hresponds <;> rfl

namespace Middleware

theorem addsLines_permissive : permissive.AddsLines where
  after _ _ := ⟨[OriginPolicy.permissive.originLine], rfl⟩
  before req r h := by
    change (if req.method = .options then some OriginPolicy.permissive.preflight else none) = some r at h
    split at h
    · cases h
      exact (Response.distinct_of_headers_nil rfl).pushHeader.pushHeader
    · cases h

theorem addsLines_tracing : tracing.AddsLines where
  after _ _ := ⟨[], rfl⟩
  before _ _ h := by cases h

end Middleware

/-! ### Hooks that add lines -/

section Behind

variable {ms : List Middleware} {req : Request} {r : Response}

theorem exists_lines_behind (hms : ∀ m ∈ ms, m.AddsLines) :
    ∃ lines, (behind ms req r).headers = (r.pushHeaders lines).headers := by
  induction ms generalizing r with
  | nil => exact ⟨[], rfl⟩
  | cons m ms ih =>
      rw [List.forall_mem_cons] at hms
      obtain ⟨lines, hlines⟩ := hms.1.after req r
      obtain ⟨later, hlater⟩ := ih (r := m.after req r) hms.2
      refine ⟨lines ++ later, ?_⟩
      rw [Response.pushHeaders_append, ← Response.headers_pushHeaders_congr hlines, ← hlater]
      rfl

theorem hasOriginOnce_behind (hms : ∀ m ∈ ms, m.AddsLines) (h : r.Distinct) :
    (behind (.permissive :: ms) req r).HasOriginOnce := by
  have horigin : lineName OriginPolicy.permissive.originLine = lower OriginPolicy.originName := by decide +kernel
  obtain ⟨lines, hlines⟩ : ∃ lines, (behind ms req (Middleware.permissive.after req r)).headers
      = ((Middleware.permissive.after req r).pushHeaders lines).headers := exists_lines_behind hms
  have hnames : (behind (.permissive :: ms) req r).names
      = ((r.pushHeader OriginPolicy.permissive.originLine).pushHeaders lines).names :=
    Response.names_congr hlines
  have hdistinct : (behind (.permissive :: ms) req r).Distinct := by
    rw [Response.Distinct, hnames]
    exact h.pushHeader.pushHeaders
  apply hdistinct.length_filter
  rw [hnames]
  exact Response.mem_names_pushHeaders.2 (Or.inl (Response.mem_names_pushHeader.2 (Or.inr horigin.symm)))

end Behind

/-! ### Dispatchers with the policy in front -/

/-- Whether the access policy stands in front, all other middleware adds lines only, and every handler is that of
an operation. -/
structure Dispatcher.Guarded (d : Dispatcher) : Prop where
  middlewares : ∃ rest, d.middlewares = .permissive :: rest ∧ ∀ m ∈ rest, m.AddsLines
  handlers : ∀ key h, d.handlers.get? key = some h → ∃ op : Operation, h = op.handler

namespace Dispatcher.Guarded

variable {d : Dispatcher} {router : Routing.Router} {req : Request}

theorem addsLines (hd : d.Guarded) {m : Middleware} (hm : m ∈ d.middlewares) : m.AddsLines := by
  obtain ⟨rest, hms, hrest⟩ := hd.middlewares
  rw [hms, List.mem_cons] at hm
  rcases hm with rfl | hm
  · exact Middleware.addsLines_permissive
  · exact hrest m hm

/-- However a request comes to its answer, no two lines of the answer have one name. -/
theorem distinct_answer (hd : d.Guarded) {e : Ending} (he : EndsIn d router req e) : (e.answer req).Distinct := by
  cases he with
  | @early passed rest m r hms _ hr =>
      have hm : m ∈ d.middlewares := by simp [hms]
      exact (hd.addsLines hm).before req r hr
  | unrouted | unhandled | panicked => exact Response.distinct_of_headers_nil rfl
  | answered _ _ hheld hr =>
      obtain ⟨op, rfl⟩ := hd.handlers _ _ hheld
      exact Response.distinct_of_headers_nil (Operation.headers_of_answered hr)

theorem hasOriginOnce_serve (hd : d.Guarded) : (serve d router req).response.HasOriginOnce := by
  obtain ⟨e, he⟩ := exists_endsIn d router req
  obtain ⟨rest, hms, hrest⟩ := hd.middlewares
  rw [he.serve, hms]
  exact hasOriginOnce_behind hrest (hd.distinct_answer he)

theorem hasOriginOnce_reject (hd : d.Guarded) (why : Rejection) : (reject d req why).response.HasOriginOnce := by
  obtain ⟨rest, hms, hrest⟩ := hd.middlewares
  rw [reject_eq, hms]
  exact hasOriginOnce_behind hrest (Response.distinct_of_headers_nil rfl)

end Dispatcher.Guarded

def Publication.Admissible : Publication → Prop
  | .handler _ h => ∃ op : Operation, h = op.handler
  | .route _ => True
  | .middleware m => m.AddsLines

namespace Registry

variable {g : Registry}

theorem guarded_publish {p : Publication} (h : g.dispatcher.Guarded) (hp : p.Admissible) :
    (g.publish p).dispatcher.Guarded := by
  obtain ⟨⟨rest, hms, hrest⟩, hhandlers⟩ := h
  cases p with
  | route r => exact ⟨⟨rest, hms, hrest⟩, hhandlers⟩
  | handler endpoint handler =>
      refine ⟨⟨rest, hms, hrest⟩, ?_⟩
      intro key h hget
      change (g.dispatcher.handlers.insert endpoint handler).get? key = some h at hget
      rw [Table.get?_insert] at hget
      split at hget
      · cases hget
        exact hp
      · exact hhandlers key h hget
  | middleware m =>
      refine ⟨⟨rest ++ [m], ?_, ?_⟩, hhandlers⟩
      · show g.dispatcher.middlewares ++ [m] = _
        rw [hms, List.cons_append]
      · intro m' hm'
        rcases List.mem_append.1 hm' with hm' | hm'
        · exact hrest m' hm'
        · rw [List.mem_singleton.1 hm']
          exact hp

theorem guarded_publishAll {steps : List Publication} (h : g.dispatcher.Guarded)
    (hsteps : ∀ p ∈ steps, p.Admissible) : (g.publishAll steps).dispatcher.Guarded := by
  induction steps generalizing g with
  | nil => exact h
  | cons p steps ih =>
      rw [List.forall_mem_cons] at hsteps
      exact ih (guarded_publish h hsteps.1) hsteps.2

end Registry

namespace App

/-- An application that has been started has its policy in front ever after. -/
theorem Reflects.guarded {s : Settings} {log : List Event} {app : App} (h : Reflects s log app)
    (hstarted : Started log) (hadded : ∀ m ∈ added log, m.AddsLines) : app.registry.dispatcher.Guarded where
  middlewares := by
    refine ⟨.tracing :: added log, ?_, ?_⟩
    · rw [h.middlewares, if_pos hstarted]
      rfl
    · rw [List.forall_mem_cons]
      exact ⟨Middleware.addsLines_tracing, hadded⟩
  handlers key handler hget := by
    rw [h.handlers] at hget
    obtain ⟨op, -, rfl⟩ := Option.map_eq_some_iff.1 hget
    exact ⟨op, rfl⟩

/-- Whatever is tried on an application, once a start has succeeded every response to a request that is served,
and to one that is refused, has exactly one line for the origins that are allowed. The router may be of another
age than the dispatcher, and some steps of other calls may have been taken by then. -/
theorem origin_line_once (s : Settings) (actions : List Action) (steps : List Publication)
    (hstarted : Started (run { settings := s } actions).1)
    (hadded : ∀ m ∈ added (run { settings := s } actions).1, m.AddsLines)
    (hsteps : ∀ p ∈ steps, p.Admissible) (router : Routing.Router) (req : Request) :
    let d := ((run { settings := s } actions).2.registry.publishAll steps).dispatcher
    (serve d router req).response.HasOriginOnce
      ∧ ∀ why, (reject d req why).response.HasOriginOnce := by
  intro d
  have hguarded : d.Guarded :=
    Registry.guarded_publishAll ((reflects_run s actions).guarded hstarted hadded) hsteps
  exact ⟨hguarded.hasOriginOnce_serve, hguarded.hasOriginOnce_reject⟩

/-- Middleware that answers some requests with an origin line of its own, and adds another to all responses. -/
def closing : Middleware where
  before req := if req.path = "/closed" then
      some { status := 503, headers := ["access-control-allow-origin: https://a.example", "Retry-After: 9"], body := .empty }
    else none
  after _ r := r.pushHeader "ACCESS-CONTROL-ALLOW-ORIGIN: null"

theorem addsLines_marked : marked.AddsLines where
  after _ _ := ⟨["X-Marked: 1"], rfl⟩
  before _ _ h := by cases h

theorem addsLines_closing : closing.AddsLines where
  after _ _ := ⟨["ACCESS-CONTROL-ALLOW-ORIGIN: null"], rfl⟩
  before req r h := by
    change (if req.path = "/closed" then some _ else none) = some r at h
    split at h
    · cases h
      show List.Nodup _
      decide +kernel
    · cases h

/-- A restart while other middleware comes in, and an endpoint whose route is not published yet. -/
theorem origin_line_once_over_restart :
    let app := (run { settings := {} } (eventful ++ restart)).2
    let steps : List Publication := [.middleware closing, .handler "GET /b" echoing.handler]
    let d := (app.registry.publishAll steps).dispatcher
    Started (run { settings := {} } (eventful ++ restart)).1
      ∧ (serve d app.registry.router { path := "/closed" }).response.headers
        = ["access-control-allow-origin: https://a.example", "Retry-After: 9", "X-Marked: 1"]
      ∧ (serve d app.registry.router { path := "/closed" }).response.HasOriginOnce
      ∧ (serve d app.registry.router { path := "/a" }).response.HasOriginOnce
      ∧ (serve d (.ofRoutes [⟨.get, "/b"⟩]) { path := "/b" }).response.HasOriginOnce
      ∧ (serve d app.registry.router { method := .options }).response.HasOriginOnce
      ∧ (reject d {} (.tooLarge 16)).response.HasOriginOnce := by
  intro app steps d
  have hstarted : Started (run { settings := {} } (eventful ++ restart)).1 := by decide +kernel
  have hadded : ∀ m ∈ added (run { settings := {} } (eventful ++ restart)).1, m.AddsLines := by
    have hlist : added (run { settings := {} } (eventful ++ restart)).1 = [marked, marked] := rfl
    rw [hlist]
    simp [addsLines_marked]
  have hsteps : ∀ p ∈ steps, p.Admissible := by
    simp only [steps, List.forall_mem_cons]
    exact ⟨addsLines_closing, ⟨echoing, rfl⟩, by simp⟩
  have honce := origin_line_once {} (eventful ++ restart) steps hstarted hadded hsteps
  refine ⟨hstarted, ?_, (honce _ _).1, (honce _ _).1, (honce _ _).1, (honce _ _).1, (honce app.registry.router _).2 _⟩
  decide +kernel

end App

end ApiContracts

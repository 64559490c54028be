import ApiContracts.App.Basic
import ApiContracts.Proofs.Except
import ApiContracts.Proofs.Routing.Listing
import ApiContracts.Proofs.Table

/-!
# What an application becomes over its runs

Actions are tried on an application one after the other, and some meet a fault. The log of what was tried
and how it went determines the application (`Reflects`): whether it runs, which middleware stands in its
dispatcher and in what order, and which routes and handlers are registered. Stopping and starting again
leave no trace in the last two.

A start puts the middleware of the application in place before the listener opens, and takes it out again
if it does not. `startInSteps` takes these steps, and comes to the same as `App.start`, which takes none of
them when it fails.
-/

namespace ApiContracts.App

open Routing

/-! ### Starting step by step -/

def withDispatcher (app : App) (d : Dispatcher) : App :=
  { app with registry := { app.registry with dispatcher := d } }

/-- A start with the dispatcher that others see meanwhile, and the fault that it meets. -/
def startInSteps (n : Network) (port : Option Nat) (hook : StartHook) (app : App) : Option AppFault × App :=
  if app.running then (some .alreadyInitialized, app)
  else
    match hook with
    | .error contexts => (some (.beforeStart (": ".intercalate contexts.reverse)), app)
    | .ok () =>
      let previous := app.registry.dispatcher
      let prepared := if app.builtIn then app else app.withDispatcher (withBuiltIns previous)
      match n.listen app.settings.host with
      | .ok () => (none, { prepared with running := true, builtIn := true })
      | .error reason => (some (.bind (app.address port) reason), prepared.withDispatcher previous)

def settled (app : App) : Except AppFault App → Option AppFault × App
  | .ok app' => (none, app')
  | .error fault => (some fault, app)

variable {n : Network} {port : Option Nat} {hook : StartHook} {key : String} {op : Operation} {app app' : App}

theorem startInSteps_eq : app.startInSteps n port hook = app.settled (app.start n port hook) := by
  unfold startInSteps start
  split
  · rfl
  · cases hook with
    | error contexts => rfl
    | ok _ =>
        cases hlisten : n.listen app.settings.host with
        | error reason =>
            simp only [settled]
            split <;> rfl
        | ok _ =>
            simp only [settled, started]
            split <;> rfl

theorem settled_eq_none {r : Except AppFault App} : (app.settled r).1 = none ↔ ∃ app', r = .ok app' := by
  cases r <;> simp [settled]

theorem start_eq_ok : app.start n port hook = .ok app'
    ↔ app.running = false ∧ hook = .ok () ∧ n.listen app.settings.host = .ok ()
        ∧ app.started = app' := by
  unfold start
  cases hrunning : app.running with
  | true => simp
  | false =>
      cases hook with
      | error contexts => simp
      | ok _ => cases n.listen app.settings.host <;> simp

theorem implement_eq_ok_iff : app.implement key op = .ok app'
    ↔ app.running = true ∧ ∃ k, EndpointKey.ofText key = .ok k
        ∧ { app with registry := app.registry.publishAll (Registry.implementing k op.handler) } = app' := by
  rw [implement]
  cases hrunning : app.running with
  | false => simp
  | true =>
      rw [Bool.not_true, if_neg Bool.false_ne_true, map_eq_ok]
      simp

/-! ### Actions and their log -/

inductive Action where
  | start (n : Network) (port : Option Nat) (hook : StartHook)
  | stop
  | implement (key : String) (op : Operation)
  | addMiddleware (m : Middleware)

structure Event where
  action : Action
  fault : Option AppFault

def perform (app : App) : Action → Option AppFault × App
  | .start n port hook => app.startInSteps n port hook
  | .stop => (none, app.stop)
  | .implement key op => app.settled (app.implement key op)
  | .addMiddleware m => (none, app.addMiddleware m)

def run (app : App) : List Action → List Event × App
  | [] => ([], app)
  | a :: rest =>
    let (fault, app') := app.perform a
    let (log, final) := run app' rest
    (⟨a, fault⟩ :: log, final)

theorem run_cons (app : App) (a : Action) (rest : List Action) :
    app.run (a :: rest) = (⟨a, (app.perform a).1⟩ :: ((app.perform a).2.run rest).1,
      ((app.perform a).2.run rest).2) := by
  rfl

theorem run_append (app : App) (actions more : List Action) :
    app.run (actions ++ more)
      = ((app.run actions).1 ++ ((app.run actions).2.run more).1, ((app.run actions).2.run more).2) := by
  induction actions generalizing app with
  | nil => rfl
  | cons a rest ih =>
      rw [List.cons_append, run_cons, run_cons, ih, List.cons_append]

namespace Event

def starts : Event → Bool
  | ⟨.start .., none⟩ => true
  | _ => false

def stops : Event → Bool
  | ⟨.stop, _⟩ => true
  | _ => false

def added? : Event → Option Middleware
  | ⟨.addMiddleware m, _⟩ => some m
  | _ => none

def registered? : Event → Option (EndpointKey × Operation)
  | ⟨.implement key op, none⟩ => (EndpointKey.ofText key).toOption.map (·, op)
  | _ => none

end Event

def added (log : List Event) : List Middleware := log.filterMap (·.added?)

def registered (log : List Event) : List (EndpointKey × Operation) := log.filterMap (·.registered?)

def Started (log : List Event) : Prop := ∃ e ∈ log, e.starts = true

instance (log : List Event) : Decidable (Started log) := inferInstanceAs (Decidable (∃ e ∈ log, _))

/-- Whether there is a last start that succeeded, and no stop behind it. -/
def RunningAfter (log : List Event) : Prop :=
  ∃ before e after, log = before ++ e :: after ∧ e.starts = true
    ∧ ∀ e' ∈ after, e'.starts = false ∧ e'.stops = false

theorem started_concat {log : List Event} {e : Event} :
    Started (log ++ [e]) ↔ Started log ∨ e.starts = true := by
  simp [Started, or_and_right, exists_or]

theorem runningAfter_concat {log : List Event} {e : Event} :
    RunningAfter (log ++ [e]) ↔ e.starts = true ∨ RunningAfter log ∧ e.stops = false := by
  constructor
  · intro h
    obtain ⟨before, e₀, after, hlog, he₀, hafter⟩ := h
    rcases List.eq_nil_or_concat' after with rfl | ⟨after, e', rfl⟩
    · obtain ⟨-, heq⟩ := List.append_inj' hlog rfl
      rw [List.singleton_inj.1 heq]
      exact Or.inl he₀
    · rw [← List.cons_append, ← List.append_assoc] at hlog
      obtain ⟨hinit, heq⟩ := List.append_inj' hlog rfl
      obtain rfl := List.singleton_inj.1 heq
      refine Or.inr ⟨⟨before, e₀, after, hinit, he₀, ?_⟩, (hafter e (by simp)).2⟩
      intro e' he'
      exact hafter e' (List.mem_append_left _ he')
  · intro h
    obtain hstarts | ⟨⟨before, e₀, after, rfl, he₀, hafter⟩, hstops⟩ := h
    · exact ⟨log, e, [], rfl, hstarts, by simp⟩
    · cases hstarts : e.starts with
      | true => exact ⟨_, e, [], rfl, hstarts, by simp⟩
      | false =>
          refine ⟨before, e₀, after ++ [e], by simp, he₀, ?_⟩
          intro e' he'
          rcases List.mem_append.1 he' with he' | he'
          · exact hafter e' he'
          · obtain rfl := List.mem_singleton.1 he'
            exact ⟨hstarts, hstops⟩

theorem started_of_runningAfter {log : List Event} (h : RunningAfter log) : Started log := by
  obtain ⟨before, e, after, rfl, he, -⟩ := h
  exact ⟨e, by simp, he⟩

/-- The operation that a key was registered for last. -/
def lastOf? (key : String) (regs : List (EndpointKey × Operation)) : Option Operation :=
  (regs.reverse.find? fun r => r.1.text == key).map (·.2)

theorem lastOf?_append (key : String) (regs later : List (EndpointKey × Operation)) :
    lastOf? key (regs ++ later) = (lastOf? key later).or (lastOf? key regs) := by
  rw [lastOf?, List.reverse_append, List.find?_append, Option.map_or]
  rfl

/-! ### What one action does -/

structure Event.Effect (e : Event) (app app' : App) : Prop where
  settings : app'.settings = app.settings
  running : app'.running = (e.starts || app.running && !e.stops)
  builtIn : app'.builtIn = (app.builtIn || e.starts)
  middlewares : app'.registry.dispatcher.middlewares
    = (if e.starts && !app.builtIn then builtIns else []) ++ app.registry.dispatcher.middlewares
      ++ e.added?.toList
  router : app'.registry.router
    = (e.registered?.toList.map (·.1.route)).foldl Router.insert app.registry.router
  handlers : ∀ key, app'.registry.dispatcher.handlers.get? key
    = ((lastOf? key e.registered?.toList).map (·.handler)).or (app.registry.dispatcher.handlers.get? key)

theorem effect_fault {a : Action} {fault : AppFault} (hstop : a ≠ .stop)
    (hadd : ∀ m, a ≠ .addMiddleware m) :
    Event.Effect ⟨a, some fault⟩ app app := by
  cases a with
  | start | implement =>
      exact ⟨rfl, by simp [Event.starts, Event.stops], by simp [Event.starts],
        by simp [Event.starts, Event.added?], rfl, fun _ => rfl⟩
  | stop => exact absurd rfl hstop
  | addMiddleware m => exact absurd rfl (hadd m)

theorem effect_started : Event.Effect ⟨.start n port hook, none⟩ app app.started := by
  cases hbuiltIn : app.builtIn with
  | true =>
      refine ⟨rfl, rfl, by simp [started, Event.starts], ?_, ?_, fun key => ?_⟩ <;>
        simp [started, hbuiltIn, Event.added?, Event.registered?, lastOf?]
  | false =>
      refine ⟨rfl, rfl, by simp [started, Event.starts], ?_, ?_, fun key => ?_⟩ <;>
        simp [started, hbuiltIn, withBuiltIns, Event.starts, Event.added?, Event.registered?, lastOf?]

theorem effect_implemented {k : EndpointKey} (hk : EndpointKey.ofText key = .ok k) :
    Event.Effect ⟨.implement key op, none⟩ app
      { app with registry := app.registry.publishAll (Registry.implementing k op.handler) } := by
  have hregistered : (⟨.implement key op, none⟩ : Event).registered? = some (k, op) := by
    simp [Event.registered?, hk, Except.toOption]
  refine ⟨rfl, ?_, ?_, ?_, ?_, fun key' => ?_⟩
  · simp [Event.starts, Event.stops]
  · simp [Event.starts]
  · simp [Event.starts, Event.added?, Registry.publishAll, Registry.implementing, Registry.publish,
      Dispatcher.addHandler]
  · simp [hregistered, Registry.publishAll, Registry.implementing, Registry.publish]
  · show (app.registry.dispatcher.handlers.insert k.text op.handler).get? key' = _
    rw [Table.get?_insert, hregistered]
    by_cases hkey : key' = k.text
    · simp [lastOf?, hkey]
    · have hkey' : ¬ k.text = key' := Ne.symm hkey
      simp [lastOf?, hkey, hkey']

theorem effect_perform (app : App) (a : Action) :
    Event.Effect ⟨a, (app.perform a).1⟩ app (app.perform a).2 := by
  cases a with
  | start n port hook =>
      rw [perform, startInSteps_eq]
      cases hstart : app.start n port hook with
      | error fault => exact effect_fault (by simp) (by simp)
      | ok app' =>
          obtain ⟨-, -, -, rfl⟩ := start_eq_ok.1 hstart
          exact effect_started
  | stop =>
      refine ⟨rfl, by simp [perform, stop, Event.starts, Event.stops], ?_, ?_, rfl, fun _ => rfl⟩
      · simp [perform, stop, Event.starts]
      · simp [perform, stop, Event.starts, Event.added?]
  | implement key op =>
      rw [perform]
      cases himplement : app.implement key op with
      | error fault => exact effect_fault (by simp) (by simp)
      | ok app' =>
          obtain ⟨-, k, hk, rfl⟩ := implement_eq_ok_iff.1 himplement
          exact effect_implemented hk
  | addMiddleware m =>
      refine ⟨rfl, by simp [perform, addMiddleware, Event.starts, Event.stops], ?_, ?_, rfl, fun _ => rfl⟩
      · simp [perform, addMiddleware, Event.starts]
      · simp [perform, addMiddleware, Event.starts, Event.added?, Registry.publish, Dispatcher.addMiddleware]

/-! ### The log tells the application -/

/-- Whether an application is what a log makes of one with these settings. -/
structure Reflects (s : Settings) (log : List Event) (app : App) : Prop where
  settings : app.settings = s
  running : app.running = true ↔ RunningAfter log
  builtIn : app.builtIn = true ↔ Started log
  middlewares : app.registry.dispatcher.middlewares = (if Started log then builtIns else []) ++ added log
  router : app.registry.router = .ofRoutes ((registered log).map (·.1.route))
  handlers : ∀ key, app.registry.dispatcher.handlers.get? key
    = (lastOf? key (registered log)).map (·.handler)

variable {s : Settings} {log : List Event}

theorem reflects_new (s : Settings) : Reflects s [] { settings := s } where
  settings := rfl
  running := by
    constructor
    · intro h
      cases h
    · intro h
      obtain ⟨before, e, after, hlog, -⟩ := h
      simp at hlog
  builtIn := by simp [Started]
  middlewares := by simp [Started, added]
  router := rfl
  handlers _ := rfl

theorem added_concat {e : Event} : added (log ++ [e]) = added log ++ e.added?.toList := by
  rw [added, List.filterMap_append, ← added]
  cases he : e.added? <;> simp [he]

theorem registered_concat {e : Event} : registered (log ++ [e]) = registered log ++ e.registered?.toList := by
  rw [registered, List.filterMap_append, ← registered]
  cases he : e.registered? <;> simp [he]

theorem Reflects.concat {e : Event} (h : Reflects s log app) (he : e.Effect app app') :
    Reflects s (log ++ [e]) app' where
  settings := he.settings.trans h.settings
  running := by
    rw [he.running, runningAfter_concat, ← h.running]
    simp
  builtIn := by
    rw [he.builtIn, started_concat, ← h.builtIn]
    simp
  middlewares := by
    rw [he.middlewares, h.middlewares, added_concat]
    simp only [started_concat, ← h.builtIn]
    cases e.starts <;> cases app.builtIn <;> simp
  router := by
    rw [he.router, h.router, registered_concat, List.map_append, Router.ofRoutes, Router.ofRoutes,
      List.foldl_append]
  handlers key := by
    rw [he.handlers, h.handlers, registered_concat, lastOf?_append, Option.map_or]

theorem Reflects.run (h : Reflects s log app) (actions : List Action) :
    Reflects s (log ++ (app.run actions).1) (app.run actions).2 := by
  induction actions generalizing log app with
  | nil => simpa [App.run] using h
  | cons a rest ih =>
      have hrest := ih (h.concat (effect_perform app a))
      rwa [List.append_assoc, List.singleton_append] at hrest

theorem reflects_run (s : Settings) (actions : List Action) :
    Reflects s (run { settings := s } actions).1 (run { settings := s } actions).2 := by
  have h := (reflects_new s).run actions
  rwa [List.nil_append] at h

theorem actions_run (app : App) (actions : List Action) :
    (app.run actions).1.map (·.action) = actions := by
  induction actions generalizing app with
  | nil => rfl
  | cons a rest ih => exact congrArg (a :: ·) (ih _)

/-! ### What is registered is served -/

theorem lastOf?_eq_none {regs : List (EndpointKey × Operation)} {r : Route}
    (h : ∀ reg ∈ regs, reg.1.route.place ≠ r.place) : lastOf? r.endpoint regs = none := by
  rw [lastOf?, Option.map_eq_none_iff, List.find?_eq_none]
  intro reg hreg htext
  apply h reg (List.mem_reverse.1 hreg)
  exact congrArg Route.place (Route.endpoint_injective (eq_of_beq htext))

/-- A route that a request finds was registered, no later registration has its place, and its handler is that
of the registration. -/
theorem Reflects.registered_of_route {m : Http.Method} {path : String} {found : Match}
    (h : Reflects s log app) (hfound : app.registry.router.route m path = some found) :
    ∃ before k op after, registered log = before ++ (k, op) :: after ∧ k.route = found.route
      ∧ (∀ reg ∈ after, reg.1.route.place ≠ found.route.place)
      ∧ app.registry.dispatcher.handlers.get? found.route.endpoint = some op.handler := by
  rw [h.router] at hfound
  obtain ⟨-, hget, -, -⟩ := Router.route_eq_some hfound
  obtain ⟨-, -, earlier, later, hroutes, hlater⟩ := Router.get?_ofRoutes_eq_some hget
  obtain ⟨before, rest, hregs, -, hrest⟩ := List.map_eq_append_iff.1 hroutes
  obtain ⟨⟨k, op⟩, after, rfl, hk, rfl⟩ := List.map_eq_cons_iff.1 hrest
  have hplaces : ∀ reg ∈ after, reg.1.route.place ≠ found.route.place := by
    intro reg hreg hplace
    exact hlater _ (List.mem_map_of_mem hreg) (Prod.ext_iff.1 hplace)
  refine ⟨before, k, op, after, hregs, hk, hplaces, ?_⟩
  have hkey : k.text = found.route.endpoint := congrArg Route.endpoint hk
  have hlast : lastOf? found.route.endpoint [(k, op)] = some op := by simp [lastOf?, hkey]
  have hrest : (k, op) :: after = [(k, op)] ++ after := rfl
  rw [h.handlers, hregs, lastOf?_append, hrest, lastOf?_append, lastOf?_eq_none hplaces, Option.none_or,
    hlast]
  rfl

/-- A request to a registered endpoint finds a route and its handler. -/
theorem Reflects.handled_of_registered {k : EndpointKey} {req : Request} (h : Reflects s log app)
    (hreg : (k, op) ∈ registered log) (hmethod : k.route.method = req.method)
    (hmatches : k.route.Matches req.path) :
    ∃ found, app.registry.router.route req.method req.path = some found
      ∧ (app.registry.dispatcher.dispatch found req).isSome = true := by
  have hroute : (app.registry.router.route req.method req.path).isSome = true := by
    rw [h.router, Router.isSome_route_iff]
    exact ⟨k.route, List.mem_map_of_mem (f := (·.1.route)) hreg, hmethod, hmatches⟩
  obtain ⟨found, hfound⟩ := Option.isSome_iff_exists.1 hroute
  obtain ⟨_, _, _, _, -, -, -, hhandler⟩ := h.registered_of_route hfound
  refine ⟨found, hfound, ?_⟩
  rw [Dispatcher.dispatch, hhandler]
  rfl

theorem Reflects.answerRouted_congr {s' : Settings} {log' : List Event} (h : Reflects s log app)
    (h' : Reflects s' log' app') (hsame : registered log = registered log') (req : Request) :
    answerRouted app.registry.dispatcher app.registry.router req
      = answerRouted app'.registry.dispatcher app'.registry.router req := by
  have hrouter : app.registry.router = app'.registry.router := by
    rw [h.router, h'.router, hsame]
  have hhandlers : app.registry.dispatcher.handlers = app'.registry.dispatcher.handlers := by
    apply Table.ext_get?
    intro key
    rw [h.handlers, h'.handlers, hsame]
  simp only [answerRouted, Dispatcher.dispatch, hrouter, hhandlers]

/-- Whatever is tried on an application: the middleware that it brings along stands first once a start has
succeeded, and behind it what was added, in order; it runs when a start has succeeded and no stop came behind
the last one that did; and a start succeeds when it does not run, the hook is passed and the listener opens.
What was registered is served ever after, and answered as it was unless more is registered. -/
theorem run_keeps_shape (s : Settings) (actions : List Action) :
    let log := (run { settings := s } actions).1
    let app := (run { settings := s } actions).2
    log.map (·.action) = actions
      ∧ app.registry.dispatcher.middlewares = (if Started log then builtIns else []) ++ added log
      ∧ (app.running = true ↔ RunningAfter log)
      ∧ (∀ n port hook, (app.perform (.start n port hook)).1 = none
          ↔ ¬ RunningAfter log ∧ hook = .ok () ∧ n.listen s.host = .ok ())
      ∧ ∀ more, let later := (app.run more).2
          (∀ k op req, (k, op) ∈ registered log → k.route.method = req.method →
            k.route.Matches req.path →
              ∃ found, later.registry.router.route req.method req.path = some found
                ∧ (later.registry.dispatcher.dispatch found req).isSome = true)
            ∧ (registered (app.run more).1 = [] → ∀ req,
                answerRouted later.registry.dispatcher later.registry.router req
                  = answerRouted app.registry.dispatcher app.registry.router req) := by
  have h := reflects_run s actions
  refine ⟨actions_run _ actions, h.middlewares, h.running, ?_, ?_⟩
  · intro n port hook
    rw [perform, startInSteps_eq, settled_eq_none, ← h.running, Bool.not_eq_true]
    simp only [start_eq_ok, h.settings, exists_and_left, exists_eq', and_true]
  · intro more
    have hlater := h.run more
    constructor
    · intro k op req hreg hmethod hmatches
      have hstill : (k, op) ∈ registered ((run { settings := s } actions).1
          ++ ((run { settings := s } actions).2.run more).1) := by
        rw [registered, List.filterMap_append]
        exact List.mem_append_left _ hreg
      exact hlater.handled_of_registered hstill hmethod hmatches
    · intro hnone req
      apply hlater.answerRouted_congr h
      rw [registered, List.filterMap_append]
      exact (congrArg (registered _ ++ ·) hnone).trans (List.append_nil _)

def blocked : Network := { Network.connected with listen := fun _ => .error "Address already in use" }

def marked : Middleware := { after := fun _ r => r.pushHeader "X-Marked: 1" }

def echoing : Operation := { business := .returned }

def eventful : List Action :=
  [.addMiddleware marked, .start blocked none (.ok ()), .start .connected none (.error ["db down"]),
    .start .connected none (.ok ()), .start .connected none (.ok ()), .implement "get  /a" echoing]

def restart : List Action :=
  [.stop, .start blocked none (.ok ()), .start .connected none (.ok ()), .addMiddleware marked]

theorem eventful_kept_by_restart :
    let log := (run { settings := {} } eventful).1
    let app := (run { settings := {} } eventful).2
    let later := (app.run restart).2
    log.map (·.fault) = [none, some (.bind "0.0.0.0:3000" "Address already in use"),
        some (.beforeStart "db down"), none, some .alreadyInitialized, none]
      ∧ app.registry.dispatcher.middlewares = [.permissive, .tracing, marked]
      ∧ later.registry.dispatcher.middlewares = [.permissive, .tracing, marked, marked]
      ∧ app.running = true ∧ app.stop.running = false ∧ later.running = true
      ∧ (∃ found, later.registry.router.route .get "/a" = some found
          ∧ (later.registry.dispatcher.dispatch found { path := "/a" }).isSome = true)
      ∧ ∀ req, answerRouted later.registry.dispatcher later.registry.router req
          = answerRouted app.registry.dispatcher app.registry.router req := by
  intro log app later
  have hregistered : registered log = [(⟨.get, "/a"⟩, echoing)] := rfl
  have hmatches : (EndpointKey.route ⟨.get, "/a"⟩).Matches "/a" := by
    rw [matches_iff]
    decide +kernel
  have hstarts : RunningAfter log :=
    ⟨log.take 3, ⟨.start .connected none (.ok ()), none⟩, log.drop 4, rfl, rfl, by decide⟩
  obtain ⟨-, hmiddlewares, hrunning, -, hserved⟩ := run_keeps_shape {} eventful
  obtain ⟨hhandled, hsame⟩ := hserved restart
  have hget : (⟨.get, "/a"⟩, echoing) ∈ registered log := hregistered ▸ List.mem_singleton_self _
  exact ⟨rfl, hmiddlewares, rfl, hrunning.2 hstarts, rfl, rfl,
    hhandled ⟨.get, "/a"⟩ echoing { path := "/a" } hget rfl hmatches, hsame rfl⟩

end ApiContracts.App

import ApiContracts.Proofs.App.EndpointKey
import ApiContracts.Proofs.App.Lifecycle

/-!
# Calls that meet a fault

A fault ends a call and undoes nothing by itself. So the calls are written here as the steps that they take,
one after the other on the application as it stands (`Action.steps`), and what a fault leaves is what was
written before it. A start writes once before it can fail: the dispatcher with the middleware that an
application brings along is in place when the listener opens, and it is the start that puts the former one back.
Everything else that can fail is settled before the first write.

With that a call that is refused leaves the application as it was, and it can be struck out of any history:
what is tried later meets the same faults and ends in the same application.
-/

namespace ApiContracts.App

open Text

/-! ### Calls as steps -/

/-- Steps on an application, ended by a fault that leaves what they have written. -/
abbrev Steps := ExceptT AppFault (StateM App)

namespace Steps

def store (d : Dispatcher) : Steps Unit := modify (·.withDispatcher d)

def publish (p : Publication) : Steps Unit := modify fun app => { app with registry := app.registry.publish p }

def start (n : Network) (port : Option Nat) (hook : StartHook) : Steps Unit := do
  if (← get).running then throw .alreadyInitialized
  if let .error contexts := hook then throw (.beforeStart (": ".intercalate contexts.reverse))
  let app ← get
  let previous := app.registry.dispatcher
  unless app.builtIn do store (withBuiltIns previous)
  if let .error reason := n.listen app.settings.host then
    store previous
    throw (.bind (app.address port) reason)
  modify fun app => { app with running := true, builtIn := true }

def implement (key : String) (op : Operation) : Steps Unit := do
  unless (← get).running do throw .notInitialized
  let k ← MonadExcept.ofExcept (EndpointKey.ofText key)
  publish (.handler k.text op.handler)
  publish (.route k.route)

def outcome (steps : Steps Unit) (app : App) : Option AppFault × App :=
  match steps.run.run app with
  | (.ok _, app') => (none, app')
  | (.error fault, app') => (some fault, app')

variable {app : App}

@[simp] theorem outcome_get {next : App → Steps Unit} :
    Steps.outcome (get >>= next) app = (next app).outcome app := by
  rfl

@[simp] theorem outcome_modify {f : App → App} : Steps.outcome (modify f) app = (none, f app) := by
  rfl

@[simp] theorem outcome_modify_bind {f : App → App} {next : PUnit → Steps Unit} :
    Steps.outcome (modify f >>= next) app = (next ⟨⟩).outcome (f app) := by
  rfl

@[simp] theorem outcome_throw {fault : AppFault} : Steps.outcome (throw fault) app = (some fault, app) := by
  rfl

@[simp] theorem outcome_ok {α : Type} {a : α} {next : α → Steps Unit} :
    Steps.outcome (MonadExcept.ofExcept (.ok a : Except AppFault α) >>= next) app = (next a).outcome app := by
  rfl

@[simp] theorem outcome_error {α : Type} {fault : AppFault} {next : α → Steps Unit} :
    Steps.outcome (MonadExcept.ofExcept (.error fault : Except AppFault α) >>= next) app = (some fault, app) := by
  rfl

end Steps

def Action.steps : Action → Steps Unit
  | .start n port hook => .start n port hook
  | .stop => modify App.stop
  | .implement key op => .implement key op
  | .addMiddleware m => .publish (.middleware m)

variable {n : Network} {port : Option Nat} {hook : StartHook} {key : String} {op : Operation} {app : App}

/-- A start comes to the same by these steps. -/
theorem outcome_start : (Steps.start n port hook).outcome app = app.startInSteps n port hook := by
  cases hrunning : app.running with
  | true => simp [Steps.start, startInSteps, hrunning]
  | false =>
      cases hook with
      | error contexts => simp [Steps.start, startInSteps, hrunning]
      | ok _ =>
          cases hlisten : n.listen app.settings.host <;> cases hbuiltIn : app.builtIn <;>
            simp [Steps.start, Steps.store, startInSteps, hrunning, hlisten, hbuiltIn]

theorem outcome_implement : (Steps.implement key op).outcome app = app.settled (app.implement key op) := by
  cases hrunning : app.running with
  | false => simp [Steps.implement, implement, settled, hrunning]
  | true =>
      cases hkey : EndpointKey.ofText key with
      | error fault => simp [Steps.implement, implement, settled, hrunning, hkey, Except.map]
      | ok k =>
          simp [Steps.implement, Steps.publish, implement, settled, hrunning, hkey, Except.map,
            Registry.publishAll, Registry.implementing]

theorem outcome_steps (app : App) (a : Action) : a.steps.outcome app = app.perform a := by
  cases a with
  | start n port hook => exact outcome_start
  | stop => rfl
  | implement key op => exact outcome_implement
  | addMiddleware m => rfl

/-! ### Which faults a call meets -/

/-- Why a key cannot be read: its first space has no path behind it, or one that does not start with a slash;
or the word before it is no verb. -/
inductive Misread (key : String) : AppFault → Prop
  | malformed (hcut : ∀ method rest, cutText ' ' (trimmed key) = some (method, rest) → ¬ Rooted rest) :
      Misread key (.malformedEndpoint key)
  | unsupported {method rest : String} (hcut : cutText ' ' (trimmed key) = some (method, rest))
      (hrooted : Rooted rest) (hverb : Verb.ofName? method = none) :
      Misread key (.unsupportedMethod (lower method) (trimmed rest))

theorem misread_iff {fault : AppFault} : EndpointKey.ofText key = .error fault ↔ Misread key fault := by
  have hhead (rest : String) : (trimmed rest).toList.head? = some '/' ↔ Rooted rest := by
    rw [trimmed, String.toList_ofList]
    rfl
  constructor
  · intro h
    cases hcut : cutText ' ' (trimmed key) with
    | none =>
        simp only [EndpointKey.ofText, hcut, Except.error.injEq] at h
        exact h ▸ .malformed (by simp [hcut])
    | some parts =>
        obtain ⟨method, rest⟩ := parts
        simp only [EndpointKey.ofText, hcut, ne_eq, hhead] at h
        by_cases hrooted : Rooted rest
        · cases hverb : Verb.ofName? method with
          | none =>
              simp only [hrooted, hverb, not_true_eq_false, if_false, Except.error.injEq] at h
              exact h ▸ .unsupported hcut hrooted hverb
          | some v => simp [hrooted, hverb] at h
        · simp only [hrooted, not_false_eq_true, if_true, Except.error.injEq] at h
          refine h ▸ .malformed ?_
          intro method' rest' hcut'
          rw [hcut, Option.some.injEq, Prod.mk.injEq] at hcut'
          rwa [← hcut'.2]
  · intro h
    cases h with
    | malformed hcut =>
        cases hcut' : cutText ' ' (trimmed key) with
        | none => simp [EndpointKey.ofText, hcut']
        | some parts =>
            have hunrooted : ¬ Rooted parts.2 := hcut _ _ hcut'
            simp [EndpointKey.ofText, hcut', hhead, hunrooted]
    | unsupported hcut hrooted hverb => simp [EndpointKey.ofText, hcut, hhead, hrooted, hverb]

/-- The faults that the calls on an application meet, each with its reason. -/
inductive Refuses (app : App) : Action → AppFault → Prop
  | alreadyInitialized {n : Network} {port : Option Nat} {hook : StartHook} (hrunning : app.running = true) :
      Refuses app (.start n port hook) .alreadyInitialized
  | beforeStart {n : Network} {port : Option Nat} {contexts : List String} (hrunning : app.running = false) :
      Refuses app (.start n port (.error contexts)) (.beforeStart (": ".intercalate contexts.reverse))
  | bind {n : Network} {port : Option Nat} {reason : String} (hrunning : app.running = false)
      (hlisten : n.listen app.settings.host = .error reason) :
      Refuses app (.start n port (.ok ())) (.bind (app.address port) reason)
  | notInitialized {key : String} {op : Operation} (hrunning : app.running = false) :
      Refuses app (.implement key op) .notInitialized
  | misread {key : String} {op : Operation} {fault : AppFault} (hrunning : app.running = true)
      (hkey : Misread key fault) : Refuses app (.implement key op) fault

variable {a : Action} {fault : AppFault}

theorem refuses_start_iff : app.start n port hook = .error fault ↔ Refuses app (.start n port hook) fault := by
  constructor
  · intro h
    unfold start at h
    cases hrunning : app.running with
    | true =>
        rw [if_pos hrunning] at h
        cases h
        exact .alreadyInitialized hrunning
    | false =>
        rw [hrunning, if_neg Bool.false_ne_true] at h
        cases hook with
        | error contexts =>
            cases h
            exact .beforeStart hrunning
        | ok _ =>
            cases hlisten : n.listen app.settings.host with
            | error reason =>
                simp only [hlisten] at h
                cases h
                exact .bind hrunning hlisten
            | ok _ =>
                simp only [hlisten] at h
                cases h
  · intro h
    cases h with
    | alreadyInitialized hrunning => simp [start, hrunning]
    | beforeStart hrunning => simp [start, hrunning]
    | bind hrunning hlisten => simp [start, hrunning, hlisten]

theorem refuses_implement_iff :
    app.implement key op = .error fault ↔ Refuses app (.implement key op) fault := by
  cases hrunning : app.running with
  | false =>
      constructor
      · intro h
        rw [implement, hrunning] at h
        cases h
        exact .notInitialized hrunning
      · intro h
        cases h with
        | notInitialized _ => simp [implement, hrunning]
        | misread hrunning' _ => simp [hrunning] at hrunning'
  | true =>
      rw [implement, hrunning, Bool.not_true, if_neg Bool.false_ne_true, map_eq_error, misread_iff]
      constructor
      · intro h
        exact .misread hrunning h
      · intro h
        cases h with
        | notInitialized hrunning' => simp [hrunning] at hrunning'
        | misread _ hkey => exact hkey

theorem settled_eq_some {r : Except AppFault App} :
    (app.settled r).1 = some fault ↔ r = .error fault := by
  cases r <;> simp [settled]

theorem fault_iff_refuses : (app.perform a).1 = some fault ↔ Refuses app a fault := by
  cases a with
  | start n port hook => rw [perform, startInSteps_eq, settled_eq_some, refuses_start_iff]
  | implement key op => rw [perform, settled_eq_some, refuses_implement_iff]
  | stop | addMiddleware =>
      constructor
      · intro h
        cases h
      · intro h
        cases h

/-! ### What a fault leaves -/

/-- A call that is refused leaves the application as it was. -/
theorem perform_of_refuses (h : Refuses app a fault) : app.perform a = (some fault, app) := by
  cases a with
  | start n port hook => rw [perform, startInSteps_eq, refuses_start_iff.2 h, settled]
  | implement key op => rw [perform, refuses_implement_iff.2 h, settled]
  | stop | addMiddleware => cases h

theorem run_of_refuses (h : Refuses app a fault) (more : List Action) :
    app.run (a :: more) = (⟨a, some fault⟩ :: (app.run more).1, (app.run more).2) := by
  rw [run_cons, perform_of_refuses h]

def kept (log : List Event) : List Action := (log.filter (·.fault.isNone)).map (·.action)

/-- Without the calls that met a fault, the others go as they went. -/
theorem run_kept (app : App) (actions : List Action) :
    app.run (kept (app.run actions).1) = ((app.run actions).1.filter (·.fault.isNone), (app.run actions).2) := by
  induction actions generalizing app with
  | nil => rfl
  | cons a rest ih =>
      cases hfault : (app.perform a).1 with
      | some fault =>
          rw [run_of_refuses (fault_iff_refuses.1 hfault)]
          exact ih app
      | none =>
          have hkept (log : List Event) : kept (⟨a, none⟩ :: log) = a :: kept log := rfl
          rw [run_cons, hfault, hkept, run_cons, hfault, ih, List.filter_cons_of_pos rfl]

/-- On every application that calls have made, a start or a registration meets a fault exactly for its reason.
What its steps leave then is the application as it was, and whatever is tried behind it goes as without it. So
a history comes to the same without all its refused calls. -/
theorem refused_calls_leave_no_trace (s : Settings) (actions : List Action) :
    let log := (run { settings := s } actions).1
    let app := (run { settings := s } actions).2
    (∀ a fault, (a.steps.outcome app).1 = some fault ↔ Refuses app a fault)
      ∧ (∀ a fault, Refuses app a fault → (a.steps.outcome app).2 = app
          ∧ ∀ more, run { settings := s } (actions ++ more) = (log ++ (app.run more).1, (app.run more).2)
            ∧ run { settings := s } (actions ++ a :: more)
              = (log ++ ⟨a, some fault⟩ :: (app.run more).1, (app.run more).2))
      ∧ run { settings := s } (kept log) = (log.filter (·.fault.isNone), app) := by
  intro log app
  refine ⟨?_, ?_, run_kept _ actions⟩
  · intro a fault
    rw [outcome_steps]
    exact fault_iff_refuses
  · intro a fault hrefuses
    constructor
    · rw [outcome_steps, perform_of_refuses hrefuses]
    · intro more
      exact ⟨run_append _ actions more, by rw [run_append, run_of_refuses hrefuses]⟩

/-- A start that finds its address taken, the first time and behind a stop. The history has met three faults, and
without them it is made of a middleware, a start, a registration and a stop. -/
theorem blocked_starts_leave_no_trace :
    let first := (run { settings := {} } [.addMiddleware marked]).2
    let log := (run { settings := {} } (eventful ++ [.stop])).1
    let again := (run { settings := {} } (eventful ++ [.stop])).2
    first.builtIn = false ∧ again.builtIn = true
      ∧ Refuses first (.start blocked none (.ok ())) (.bind "0.0.0.0:3000" "Address already in use")
      ∧ ((Action.start blocked none (.ok ())).steps.outcome first).2 = first
      ∧ Refuses again (.start blocked (some 80) (.ok ())) (.bind "0.0.0.0:80" "Address already in use")
      ∧ ((Action.start blocked (some 80) (.ok ())).steps.outcome again).2 = again
      ∧ kept log = [.addMiddleware marked, .start .connected none (.ok ()), .implement "get  /a" echoing, .stop]
      ∧ (run { settings := {} } (kept log)).2 = again := by
  intro first log again
  have hfirst : Refuses first (.start blocked none (.ok ())) (.bind "0.0.0.0:3000" "Address already in use") :=
    have haddress : first.address none = "0.0.0.0:3000" := by decide +kernel
    haddress ▸ .bind rfl rfl
  have hagain : Refuses again (.start blocked (some 80) (.ok ())) (.bind "0.0.0.0:80" "Address already in use") :=
    have haddress : again.address (some 80) = "0.0.0.0:80" := by decide +kernel
    haddress ▸ .bind rfl rfl
  obtain ⟨-, hleft, -⟩ := refused_calls_leave_no_trace {} [.addMiddleware marked]
  obtain ⟨-, hleft', hkept⟩ := refused_calls_leave_no_trace {} (eventful ++ [.stop])
  exact ⟨rfl, rfl, hfirst, (hleft _ _ hfirst).1, hagain, (hleft' _ _ hagain).1, rfl, (Prod.ext_iff.1 hkept).2⟩

end ApiContracts.App

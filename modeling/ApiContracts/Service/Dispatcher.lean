import ApiContracts.Service.Middleware
import ApiContracts.Service.Operation
import ApiContracts.Routing.Router

/-!
# Dispatchers

The handlers by their endpoints' keys, and the middleware around them. Running hooks and handlers also gives an account of the calls, in order: every hook is called once, also those behind a hook that answered.
-/

namespace ApiContracts

open Routing

/-- One call made while a request is served; hooks are named by the place of their middleware. -/
inductive Call where
  | before (place : Nat) (req : Request)
  | handler (endpoint : String) (req : Request)
  | after (place : Nat) (req : Request) (r : Response)

structure Dispatcher where
  handlers : Table Handler := .empty
  middlewares : List Middleware := []

namespace Dispatcher

def holds (d : Dispatcher) (endpoint : String) : Bool := (d.handlers.get? endpoint).isSome

/-- Puts the handler of an endpoint in the place of the one it had. -/
def addHandler (d : Dispatcher) (endpoint : String) (h : Handler) : Dispatcher :=
  { d with handlers := d.handlers.insert endpoint h }

def addMiddleware (d : Dispatcher) (m : Middleware) : Dispatcher := { d with middlewares := d.middlewares ++ [m] }

/-- The first answer of the hooks before a request, and the calls from place `n` on. -/
def beforeAll (req : Request) : Nat → List Middleware → Option Response × List Call
  | _, [] => (none, [])
  | n, m :: rest =>
    let (later, calls) := beforeAll req (n + 1) rest
    ((m.before req).or later, .before n req :: calls)

/-- The response behind the hooks on it, and the calls from place `n` on. -/
def afterAll (req : Request) : Nat → List Middleware → Response → Response × List Call
  | _, [], r => (r, [])
  | n, m :: rest, r =>
    let (r', calls) := afterAll req (n + 1) rest (m.after req r)
    (r', .after n req r :: calls)

def intercept (d : Dispatcher) (req : Request) : Option Response × List Call := beforeAll req 0 d.middlewares

def finish (d : Dispatcher) (req : Request) (r : Response) : Response × List Call := afterAll req 0 d.middlewares r

/-- The request as its handler sees it. -/
def routed (m : Match) (req : Request) : Request :=
  { req with endpoint := m.route.endpoint, pathParams := m.params }

/-- The answer to a reaction; a panic is an internal error. -/
def answerOf : Reaction → Response
  | .answered r => r
  | .panicked message => .text 500 (message.getD "unknown panic")

/-- The answer of the handler that a route leads to, with the request as it saw it; none where there is no handler. -/
def dispatch (d : Dispatcher) (m : Match) (req : Request) : Option (Response × Request) :=
  (d.handlers.get? m.route.endpoint).map fun h => (answerOf (h (routed m req)), routed m req)

end Dispatcher

end ApiContracts

import ApiContracts.Service.Dispatcher

/-!
# Serving requests

A request passes the hooks before it, is routed and handled unless a hook answered it, and its response passes the hooks on it. The dispatcher is fixed before the hooks run and the router when they have run, so the two may be of different ages.
-/

namespace ApiContracts

open Json Routing

/-- A served request: its response and the calls made for it. -/
structure Served where
  response : Response
  calls : List Call

inductive Rejection where
  | tooLarge (limit : Nat)
  | malformedJson (reason : String)
  | badRequest (reason : String)

namespace Rejection

def message : Rejection → String
  | tooLarge limit => s!"request body exceeds the {limit} byte limit"
  | malformedJson reason => s!"malformed JSON body: {reason}"
  | badRequest reason => s!"bad request: {reason}"

def status : Rejection → Nat
  | tooLarge _ => 413
  | malformedJson _ | badRequest _ => 400

def toResponse (r : Rejection) : Response := .error r.status r.message

end Rejection

def requestFault (status : Nat) (message : String) (req : Request) : Response :=
  .json status (.object [("error", .str message), ("method", .str req.method.name), ("path", .str req.path)])

def notFound (req : Request) : Response := requestFault 404 "Not Found" req

def noHandler (req : Request) : Response := requestFault 500 "Handler failed or not registered" req

/-- The answer of the route that a request leads to, with the request behind it and the calls made. -/
def answerRouted (d : Dispatcher) (router : Router) (req : Request) : Response × Request × List Call :=
  match router.route req.method req.path with
  | none => (notFound req, req, [])
  | some m =>
    match d.dispatch m req with
    | some (r, seen) => (r, seen, [.handler m.route.endpoint seen])
    | none => (noHandler req, req, [])

def serve (d : Dispatcher) (router : Router) (req : Request) : Served :=
  let (early, before) := d.intercept req
  let (answer, seen, handled) := match early with
    | some r => (r, req, [])
    | none => answerRouted d router req
  let (response, after) := d.finish seen answer
  ⟨response, before ++ handled ++ after⟩

/-- Answers a request that was refused; the hooks on its response still run. -/
def reject (d : Dispatcher) (req : Request) (why : Rejection) : Served :=
  let (response, calls) := d.finish req why.toResponse
  ⟨response, calls⟩

end ApiContracts

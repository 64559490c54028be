import ApiContracts.App.EndpointKey
import ApiContracts.Service.Serve

/-!
# The registry

The dispatcher and the router of an application, which change while requests are served. Each change is one step that others see whole. An endpoint is published in two, first its handler and then its route, so at no moment is there a route without its handler. A request takes the dispatcher and then the router, in two steps as well: a handler that is published between them is one it does not have, though it may find its route.
-/

namespace ApiContracts

open Routing

structure Registry where
  dispatcher : Dispatcher := {}
  router : Router := {}

/-- One change that is seen whole. -/
inductive Publication where
  | handler (endpoint : String) (h : Handler)
  | route (r : Route)
  | middleware (m : Middleware)

namespace Registry

def publish (g : Registry) : Publication → Registry
  | .handler endpoint h => { g with dispatcher := g.dispatcher.addHandler endpoint h }
  | .route r => { g with router := g.router.insert r }
  | .middleware m => { g with dispatcher := g.dispatcher.addMiddleware m }

def implementing (k : EndpointKey) (h : Handler) : List Publication := [.handler k.text h, .route k.route]

def publishAll (g : Registry) (steps : List Publication) : Registry := steps.foldl publish g

def serve (g : Registry) (req : Request) : Served := ApiContracts.serve g.dispatcher g.router req

end Registry

end ApiContracts

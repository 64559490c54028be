import ApiContracts.Routing.Tree
import ApiContracts.Service.Request

/-!
# Routers

The route tree with the list of what was registered. A registration that takes the place of a route in the tree also takes the routes of its own key off the list.
-/

namespace ApiContracts.Routing

open Http

structure Router where
  tree : Tree := .empty
  listed : List Route := []

/-- A route that a request leads to, with the values of its parameters in the order of the path. -/
structure Match where
  route : Route
  params : List (String × String)

/-- The value of a parameter; of several with one name the last. -/
def Match.param? (m : Match) (name : String) : Option String := (valuesOf name m.params).getLast?

namespace Router

/-- Whether the tree has a route where `r` belongs. -/
def holds (t : Router) (r : Route) : Bool := (t.tree.get? r.method r.pattern).isSome

def insert (t : Router) (r : Route) : Router where
  tree := t.tree.insert r r.pattern
  listed := (if t.holds r then t.listed.filter (·.endpoint != r.endpoint) else t.listed) ++ [r]

def ofRoutes (rs : List Route) : Router := rs.foldl insert {}

def size (t : Router) : Nat := t.listed.length

def isEmpty (t : Router) : Bool := t.listed.isEmpty

/-- The keys on the list, in the order of registration. -/
def endpoints (t : Router) : List String := t.listed.map (·.endpoint)

def route (t : Router) (m : Method) (path : String) : Option Match :=
  (t.tree.search m (segments path)).map fun (r, bound) => ⟨r, bound⟩

end Router

end ApiContracts.Routing

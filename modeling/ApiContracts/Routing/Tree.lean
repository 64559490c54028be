import ApiContracts.Routing.Pattern

/-!
# The route tree

Routes stand in a tree of their patterns' segments. A node has one child for each static text and one for each parameter name, and one route for each method. A search tries the static child first and then the parameters in the order they were added, going back where a branch leads nowhere.
-/

namespace ApiContracts.Routing

open Http Text

/-- A method and a pattern, with the key that names their handler. -/
structure Route where
  method : Method
  path : String
  deriving DecidableEq

def Route.endpoint (r : Route) : String := r.method.name ++ " " ++ r.path

def Route.pattern (r : Route) : List Segment := Routing.pattern r.path

/-- Changes the value of a key in a list of entries; a key that is not there is added last, with the change of `fresh`. -/
def alter {κ α : Type} [DecidableEq κ] (key : κ) (fresh : α) (f : α → α) : List (κ × α) → List (κ × α)
  | [] => [(key, f fresh)]
  | (k, v) :: rest => if k = key then (k, f v) :: rest else (k, v) :: alter key fresh f rest

inductive Tree where
  | node (routes : List (Method × Route)) (statics params : List (String × Tree))

namespace Tree

def empty : Tree := node [] [] []

instance : Inhabited Tree := ⟨empty⟩

def routes : Tree → List (Method × Route)
  | node rs _ _ => rs

def statics : Tree → List (String × Tree)
  | node _ ss _ => ss

def params : Tree → List (String × Tree)
  | node _ _ ps => ps

def child (t : Tree) : Segment → Option Tree
  | .static s => t.statics.lookup s
  | .param name => t.params.lookup name

def get? (m : Method) : List Segment → Tree → Option Route
  | [], t => t.routes.lookup m
  | s :: rest, t => (t.child s).bind (get? m rest)

/-- The tree with a route at a pattern, in place of the one there. -/
def insert (r : Route) : List Segment → Tree → Tree
  | [], node rs ss ps => node (alter r.method r (fun _ => r) rs) ss ps
  | .static s :: rest, node rs ss ps => node rs (alter s empty (insert r rest) ss) ps
  | .param name :: rest, node rs ss ps => node rs ss (alter name empty (insert r rest) ps)

/-- The route that the segments of a request lead to, with what its parameters take. -/
def search (m : Method) : List String → Tree → Option (Route × List (String × String))
  | [], t => (t.routes.lookup m).map fun r => (r, [])
  | s :: rest, t =>
    let here : Option (Route × List (String × String)) := (t.statics.lookup s).bind (search m rest)
    here.or <| t.params.findSome? fun (name, sub) =>
      (search m rest sub).map fun (r, bound) => (r, (name, percentDecode s) :: bound)

end Tree

end ApiContracts.Routing

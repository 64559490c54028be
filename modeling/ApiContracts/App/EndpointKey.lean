import ApiContracts.Routing.Router
import ApiContracts.Text.Blank

/-!
# Endpoint keys

A key names an endpoint by verb and path, with a space between them. It is read with any padding and the verb in any letter case, and written in one form only.
-/

namespace ApiContracts

open Text Routing

inductive AppFault where
  | notInitialized
  | alreadyInitialized
  | unsupportedMethod (method path : String)
  | malformedEndpoint (key : String)
  | beforeStart (reason : String)
  | bind (address reason : String)
  deriving DecidableEq

def AppFault.message : AppFault → String
  | notInitialized => "server has not been initialized yet; call init() before implement()"
  | alreadyInitialized => "server is already initialized"
  | unsupportedMethod method path => s!"method \"{method} {path}\" unsupported"
  | malformedEndpoint key => s!"endpoint key `{key}` is not of the form \"METHOD /path\""
  | beforeStart reason => s!"before_start hook failed: {reason}"
  | bind address reason => s!"failed to bind {address}: {reason}"

structure EndpointKey where
  verb : Verb
  path : String
  deriving DecidableEq

namespace EndpointKey

def ofText (key : String) : Except AppFault EndpointKey :=
  match cutText ' ' (trimmed key) with
  | none => .error (.malformedEndpoint key)
  | some (method, rest) =>
    let path := trimmed rest
    if path.toList.head? ≠ some '/' then .error (.malformedEndpoint key)
    else
      match Verb.ofName? method with
      | some verb => .ok ⟨verb, path⟩
      | none => .error (.unsupportedMethod (lower method) path)

def route (k : EndpointKey) : Route := ⟨.ofVerb k.verb, k.path⟩

def text (k : EndpointKey) : String := k.route.endpoint

end EndpointKey

end ApiContracts

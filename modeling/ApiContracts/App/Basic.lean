import ApiContracts.App.Network
import ApiContracts.App.Registry
import ApiContracts.Settings

/-!
# Applications

An application opens its listener, publishes endpoints while it runs, and may be stopped and started again. What was registered stays. The first start puts the access policy and the tracing in front of all other middleware. A call that fails changes nothing.
-/

namespace ApiContracts

/-- What is run before the listener opens. It may fail for a reason, told with the contexts it was wrapped in, the innermost first. -/
abbrev StartHook := Except (List String) Unit

structure App where
  settings : Settings
  registry : Registry := {}
  running : Bool := false
  /-- Whether the middleware that an application brings along is in place. -/
  builtIn : Bool := false

namespace App

/-- The middleware that every application brings along. -/
def builtIns : List Middleware := [.permissive, .tracing]

/-- The address of the listener; the port of an application may be chosen by the machine. -/
def address (app : App) (port : Option Nat) : String := s!"{app.settings.host}:{port.getD app.settings.port}"

def withBuiltIns (d : Dispatcher) : Dispatcher := { d with middlewares := builtIns ++ d.middlewares }

def started (app : App) : App :=
  { app with
    registry := if app.builtIn then app.registry
      else { app.registry with dispatcher := withBuiltIns app.registry.dispatcher }
    running := true
    builtIn := true }

def start (n : Network) (port : Option Nat) (hook : StartHook) (app : App) : Except AppFault App :=
  if app.running then .error .alreadyInitialized
  else
    match hook with
    | .error contexts => .error (.beforeStart (": ".intercalate contexts.reverse))
    | .ok () =>
      match n.listen app.settings.host with
      | .ok () => .ok app.started
      | .error reason => .error (.bind (app.address port) reason)

def implement (key : String) (op : Operation) (app : App) : Except AppFault App :=
  if !app.running then .error .notInitialized
  else (EndpointKey.ofText key).map fun k =>
    { app with registry := app.registry.publishAll (Registry.implementing k op.handler) }

def addMiddleware (m : Middleware) (app : App) : App := { app with registry := app.registry.publish (.middleware m) }

def stop (app : App) : App := { app with running := false }

def waitReady (n : Network) (app : App) : Except String Unit :=
  if app.running then n.connect.mapError fun _ => "listener not accepting" else .error "server not initialized"

end App

end ApiContracts

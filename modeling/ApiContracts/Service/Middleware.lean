import ApiContracts.Service.Request
import ApiContracts.Service.Response

/-!
# Middleware

Hooks around every request: one before it is routed, which may answer it, and one on every response. The two that an application brings along are the access policy for other origins, which answers preflight requests, and tracing, which only logs.
-/

namespace ApiContracts

open Http

structure Middleware where
  before : Request → Option Response := fun _ => none
  after : Request → Response → Response := fun _ r => r

/-- Which origins, headers and methods browsers may use, as header lines. -/
structure OriginPolicy where
  originLine : String
  headersLine : String
  methodsLine : String
  deriving DecidableEq

namespace OriginPolicy

def originName : String := "Access-Control-Allow-Origin"

def headersName : String := "Access-Control-Allow-Headers"

def methodsName : String := "Access-Control-Allow-Methods"

def listLine (name : String) (values : List String) : String := name ++ ": " ++ ", ".intercalate values

def ofLists (origins headers : List String) (methods : List Method) : OriginPolicy where
  originLine := listLine originName origins
  headersLine := listLine headersName headers
  methodsLine := listLine methodsName (methods.map (·.name))

/-- Any origin, any header, and the common methods. -/
def permissive : OriginPolicy where
  originLine := s!"{originName}: *"
  headersLine := s!"{headersName}: *"
  methodsLine := s!"{methodsName}: GET, HEAD, PUT, PATCH, POST, DELETE"

def preflight (p : OriginPolicy) : Response := ((Response.empty 204).pushHeader p.methodsLine).pushHeader p.headersLine

def middleware (p : OriginPolicy) : Middleware where
  before req := if req.method = .options then some p.preflight else none
  after _ r := r.pushHeader p.originLine

end OriginPolicy

namespace Middleware

/-- The policy that allows everything. -/
def permissive : Middleware := OriginPolicy.permissive.middleware

def tracing : Middleware := {}

end Middleware

end ApiContracts

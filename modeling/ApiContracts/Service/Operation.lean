import ApiContracts.Service.Failure
import ApiContracts.Service.RawParams
import ApiContracts.Rules.Validate

/-!
# Operations

A contract bound to business code. A request is decoded, and checked if the contract is typed; it is then read as the contract's request type, handed to the business code, and the outcome is made a response. Business code is not called for a request that was refused.
-/

namespace ApiContracts

open Json

inductive ContractMode where
  /-- The request is decoded and checked by the rules. -/
  | typed
  /-- The request is handed over as raw parameters. -/
  | passThrough
  deriving DecidableEq

/-- How business code ends. A panic may carry a message. -/
inductive Outcome where
  | returned (v : Value)
  /-- A result that cannot be written, and why. -/
  | unwritable (reason : String)
  | failed (f : Failure)
  | panicked (message : Option String)

structure Operation where
  mode : ContractMode := .typed
  sections : List (SectionRules NamedType) := []
  /-- The reading of the request type. -/
  request : Value → Except DecodeError Value := .ok
  business : Value → Outcome

inductive Refusal where
  | invalid (v : Violation)
  | unreadable (e : DecodeError)

def Refusal.message : Refusal → String
  | invalid v => v.message
  | unreadable e => e.message

/-- What a handler does: it answers, or panics. -/
inductive Reaction where
  | answered (r : Response)
  | panicked (message : Option String)

abbrev Handler := Request → Reaction

namespace Operation

def read (op : Operation) (req : Request) : Except Refusal Value := do
  let v ← match op.mode with
    | .typed => (decodeAndValidate op.sections req).mapError .invalid
    | .passThrough => pure (RawParams.ofRequest req).toValue
  (op.request v).mapError .unreadable

def respond : Outcome → Reaction
  | .returned v => .answered (.json 200 v)
  | .unwritable reason => .answered (.text 500 s!"failed to serialize response: {reason}")
  | .failed f => .answered f.toResponse
  | .panicked message => .panicked message

def handler (op : Operation) : Handler := fun req =>
  match op.read req with
  | .error refusal => .answered (.text 400 refusal.message)
  | .ok v => respond (op.business v)

end Operation

end ApiContracts

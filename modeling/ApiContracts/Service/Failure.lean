import ApiContracts.Service.Response
import ApiContracts.Text.Blank
import ApiContracts.Text.Numeral

/-!
# Failures of business code

A failure is a message, or a code with a payload. A message may carry a code itself: three digits before its first colon, with blanks around them. A code that is no status of a response counts as an internal error.
-/

namespace ApiContracts

open Json Text

inductive Failure where
  | thrown (message : String)
  | structured (code : Nat) (payload : Value)

namespace Failure

def message : Failure → String
  | thrown m => m
  | structured code _ => s!"structured error with code {code}"

/-- The failure of a message wrapped in contexts, of which only the outermost is seen. -/
def inContexts (message : String) (contexts : List String) : Failure := thrown (contexts.getLast?.getD message)

end Failure

def sentinel? (message : String) : Option (Nat × String) :=
  match trimStart message.toList with
  | a :: b :: c :: rest =>
    match natural 10 [a, b, c], trimStart rest with
    | some code, ':' :: text => some (code, String.ofList (trim text))
    | _, _ => none
  | _ => none

def isStatus (code : Nat) : Bool := 100 ≤ code && code ≤ 599

def Failure.toResponse : Failure → Response
  | .structured code payload => .json (if isStatus code then code else 500) payload
  | .thrown message =>
    match sentinel? message with
    | some (code, text) => if isStatus code then .text code text else .text 500 message
    | none => .text 500 message

end ApiContracts

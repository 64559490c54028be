import ApiContracts.Json.Value
import ApiContracts.Text.Letters
import ApiContracts.Text.Pieces

/-!
# Responses

A status, header lines and a body. Header lines are told apart by the name before their colon, in any letter case, and the first line of a name stays.
-/

namespace ApiContracts

open Json Text

inductive Body where
  | json (v : Value)
  | text (s : String)
  | empty

structure Response where
  status : Nat
  headers : List String := []
  body : Body

def headerName (line : String) : String := String.ofList (line.toList.takeWhile (· ≠ ':'))

namespace Response

def json (status : Nat) (v : Value) : Response := { status, body := .json v }

def text (status : Nat) (s : String) : Response := { status, body := .text s }

def empty (status : Nat) : Response := { status, body := .empty }

def error (status : Nat) (message : String) : Response := json status (.object [("error", .str message)])

/-- The response with a header line, unless it has one of the same name. -/
def pushHeader (r : Response) (line : String) : Response :=
  if r.headers.any fun h => sameLetters (headerName h) (headerName line) then r
  else { r with headers := r.headers ++ [line] }

end Response

end ApiContracts

import ApiContracts.App.Registry
import ApiContracts.Http.Reason
import ApiContracts.Json.Printer
import ApiContracts.Json.Reader

/-!
# Exchanges

A request as it was sent and the response as it is sent back. The body of a request may not be longer than a limit; it is read as JSON unless it is blank or the content type names something else.
-/

namespace ApiContracts

open Json Text

/-- A request as it was sent. -/
structure Message where
  method : String
  target : String
  headers : List (String × List UInt8) := []
  body : List UInt8 := []

/-- A response as it is sent back. -/
structure Reply where
  statusLine : String
  headers : List String
  body : String

def isBlankByte (b : UInt8) : Bool := b == 0x20 || b == 0x09 || b == 0x0a || b == 0x0c || b == 0x0d

/-- Whether a body of a content type is JSON; no content type counts as JSON. -/
def isJsonContent (contentType : Option String) : Bool := contentType.all fun t => holds "json".toList (lower t).toList

/-- The greatest size, of a body as of a limit: sizes are told in 64 bits. -/
def maxSize : Nat := twoTo 64 - 1

/-- Reads a body no further than the first byte over the limit, and no more bytes than a size can tell. -/
def readLimited (limit : Nat) (bytes : List UInt8) : Except Rejection (List UInt8) :=
  let read := bytes.take (min (limit + 1) maxSize)
  if read.length > limit then .error (.tooLarge limit) else .ok read

def readBody (limit : Nat) (contentType : Option String) (bytes : List UInt8) : Except Rejection (Option Value) := do
  let read ← readLimited limit bytes
  if read.all isBlankByte || !isJsonContent contentType then .ok none
  else ((Value.ofBytes read).mapError fun e => .malformedJson e.message).map some

namespace Message

/-- The spaces and tabs around a header's value do not belong to it. -/
def headerValue (bytes : List UInt8) : List UInt8 :=
  let blank (b : UInt8) : Bool := b == 0x20 || b == 0x09
  ((bytes.dropWhile blank).reverse.dropWhile blank).reverse

/-- The request without its body; names of headers in small letters. -/
def head (m : Message) : Except Rejection Request :=
  match Http.Method.ofName? m.method with
  | none => .error (.badRequest Http.Method.invalid)
  | some method =>
    .ok {
      method
      path := pathOf m.target
      query := queryOf m.target
      headers := m.headers.map fun (name, value) => (lower name, textLossy (headerValue value)) }

end Message

namespace Reply

def content : Body → List String × String
  | .json v => (["Content-Type: application/json"], v.compact)
  | .text s => (["Content-Type: text/plain; charset=utf-8"], s)
  | .empty => ([], "")

/-- The phrase of a status line; the usual code is written with one of its own. -/
def phrase (status : Nat) : String := if status = 200 then "Ok" else Http.reason status

def ofResponse (r : Response) : Reply where
  statusLine := s!"HTTP/1.1 {r.status} {phrase r.status}"
  headers := s!"Content-Length: {(bytesOf (content r.body).2).length}" :: r.headers ++ (content r.body).1
  body := (content r.body).2

end Reply

/-- The response to a message. A request without a method of the right form meets no hooks. -/
def respond (g : Registry) (limit : Nat) (m : Message) : Response :=
  match m.head with
  | .error why => why.toResponse
  | .ok req =>
    match readBody limit (req.header? "content-type") m.body with
    | .ok body => (g.serve { req with body }).response
    | .error why => (reject g.dispatcher req why).response

def exchange (g : Registry) (limit : Nat) (m : Message) : Reply := .ofResponse (respond g limit m)

end ApiContracts

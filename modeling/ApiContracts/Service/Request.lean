import ApiContracts.Http.Method
import ApiContracts.Json.Value
import ApiContracts.Text.Letters
import ApiContracts.Text.Percent

/-!
# Requests

What a handler is given. Names may repeat everywhere; each section has its own way to choose among the values of a name: the last one in paths, all of them in the query, and the first one, in any letter case, for a header.
-/

namespace ApiContracts

open Json Text

structure Request where
  method : Http.Method := .get
  /-- The path without the query. -/
  path : String := "/"
  /-- The key of the endpoint, empty until the request is routed. -/
  endpoint : String := ""
  pathParams : List (String × String) := []
  query : List (String × String) := []
  headers : List (String × String) := []
  body : Option Value := none

/-- The values of a name, in order. -/
def valuesOf (name : String) (entries : List (String × String)) : List String :=
  (entries.filter (·.1 == name)).map (·.2)

namespace Request

/-- A path parameter; of several with one name the last. -/
def pathParam? (r : Request) (name : String) : Option String := (valuesOf name r.pathParams).getLast?

/-- All values of a query parameter, in order. -/
def queryValues (r : Request) (name : String) : List String := valuesOf name r.query

/-- All values of a header, in order. -/
def headerValues (r : Request) (name : String) : List String :=
  (r.headers.filter fun h => sameLetters h.1 name).map (·.2)

/-- The first value of a header. -/
def header? (r : Request) (name : String) : Option String := (r.headerValues name).head?

end Request

/-- The query of a target: what follows its first question mark. -/
def queryOf (target : String) : List (String × String) :=
  match Text.cutText '?' target with
  | some (_, query) => formPairs query
  | none => []

/-- The path of a target: what precedes its first question mark. -/
def pathOf (target : String) : String := (Text.cutText '?' target).elim target (·.1)

end ApiContracts

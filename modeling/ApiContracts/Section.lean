import ApiContracts.Text.Letters

/-!
# Sections of a request

The four places a request carries values in, in the order in which they are checked.
-/

namespace ApiContracts

inductive Section where
  | paths
  | headers
  | query
  | body
  deriving DecidableEq

namespace Section

def order : List Section := [paths, headers, query, body]

def name : Section → String
  | paths => "paths"
  | headers => "headers"
  | query => "query"
  | body => "body"

def typeName (s : Section) : String := Text.capitalized s.name

def rulesName (s : Section) : String := Text.upper s.name ++ "_RULES"

def ofName? (s : String) : Option Section := order.find? fun x => x.name == s

end Section

end ApiContracts

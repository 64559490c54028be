import ApiContracts.Description.Verb

/-!
# Request methods

The method of a request is any token of the protocol; letter case counts. The verbs that endpoints may declare are five of them.
-/

namespace ApiContracts.Http

def isTokenChar (c : Char) : Bool :=
  c.isAlphanum || c ∈ ['!', '#', '$', '%', '&', '\'', '*', '+', '-', '.', '^', '_', '\x60', '|', '~']

def isToken (s : String) : Bool := !s.isEmpty && s.toList.all isTokenChar

structure Method where
  name : String
  token : isToken name = true
  deriving DecidableEq

namespace Method

def ofName? (s : String) : Option Method := if h : isToken s = true then some ⟨s, h⟩ else none

def get : Method := ⟨"GET", by decide +kernel⟩

def options : Method := ⟨"OPTIONS", by decide +kernel⟩

def ofVerb (v : Verb) : Method := ⟨v.wireName, by cases v <;> decide +kernel⟩

def invalid : String := "invalid HTTP method"

end Method

end ApiContracts.Http

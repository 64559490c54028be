import ApiContracts.Text.Letters

/-!
# Verbs

The five methods an endpoint may declare. Three of them carry a request body. A verb is read in any letter case and written in capitals on the wire, in small letters in a description.
-/

namespace ApiContracts

open Text

inductive Verb where
  | get
  | post
  | put
  | patch
  | delete
  deriving DecidableEq

namespace Verb

def all : List Verb := [get, post, put, patch, delete]

def name : Verb → String
  | get => "get"
  | post => "post"
  | put => "put"
  | patch => "patch"
  | delete => "delete"

def wireName : Verb → String
  | get => "GET"
  | post => "POST"
  | put => "PUT"
  | patch => "PATCH"
  | delete => "DELETE"

def acceptsBody : Verb → Bool
  | post | put | patch => true
  | get | delete => false

def ofName? (s : String) : Option Verb := all.find? fun v => v.name == lower s

/-- The verb of a name as a description may write it: all small or all capitals. -/
def ofDescription? (s : String) : Option Verb := all.find? fun v => v.name == s || v.wireName == s

def unsupported (s : String) : String := s!"unsupported method `{s}`"

theorem mem_all (v : Verb) : v ∈ all := by cases v <;> simp [all]

theorem ofName?_wireName (v : Verb) : ofName? v.wireName = some v := by cases v <;> decide +kernel

theorem ofName?_name (v : Verb) : ofName? v.name = some v := by cases v <;> decide +kernel

end Verb

end ApiContracts

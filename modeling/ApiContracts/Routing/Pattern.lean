import ApiContracts.Http.Method
import ApiContracts.Text.Percent
import ApiContracts.Text.Pieces

/-!
# Path patterns

A path is a list of segments; empty ones do not count. In a pattern a segment that starts with a colon, or stands in braces, is a parameter: it takes any segment of a request and names its percent-decoded text. Every other segment takes only itself, as it was sent.
-/

namespace ApiContracts.Routing

open Text

def segments (path : String) : List String := (splitText '/' path).filter (!·.isEmpty)

inductive Segment where
  | static (text : String)
  | param (name : String)
  deriving DecidableEq

namespace Segment

def ofText (s : String) : Segment :=
  match s.toList with
  | ':' :: name => .param (String.ofList name)
  | '\x7b' :: inner =>
    if inner.getLast? = some '\x7d' then .param (String.ofList inner.dropLast) else .static s
  | _ => .static s

def takes : Segment → String → Bool
  | static t, s => t == s
  | param _, _ => true

def binding : Segment → String → List (String × String)
  | static _, _ => []
  | param name, s => [(name, percentDecode s)]

end Segment

def pattern (path : String) : List Segment := (segments path).map Segment.ofText

def fits : List Segment → List String → Bool
  | [], [] => true
  | p :: ps, s :: ss => p.takes s && fits ps ss
  | _, _ => false

/-- The parameters of a request that fits a pattern, in order. -/
def bindings (ps : List Segment) (ss : List String) : List (String × String) :=
  (List.zipWith Segment.binding ps ss).flatten

end ApiContracts.Routing

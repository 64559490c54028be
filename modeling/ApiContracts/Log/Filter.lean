import ApiContracts.Log.Directive
import ApiContracts.Text.Utf8

/-!
# Log filters

The directives that speak of events alone, the most specific first: those with the longer target, then those with more fields. The first that applies to an event decides. A directive takes the place of one for the same events.
-/

namespace ApiContracts.Log

open Text

/-- What is logged: a level, a target and the names of fields. -/
structure Event where
  level : Level
  target : String
  fields : List String := ["message"]

structure EventRule where
  level : Level
  target : Option (List Char) := none
  fields : List (List Char) := []

namespace EventRule

def weight (r : EventRule) : Nat × Nat :=
  ((r.target.map fun t => (encode t).length + 1).getD 0, r.fields.length)

/-- The order of the rules: specific ones first, equally specific ones by their texts. -/
def compareTo (a b : EventRule) : Ordering :=
  let target (r : EventRule) : List Char := r.target.getD []
  (compareOfLessAndEq b.weight.1 a.weight.1).then <|
    (compareOfLessAndEq b.weight.2 a.weight.2).then <|
      (compareOfLessAndEq (target b) (target a)).then (compareOfLessAndEq b.fields a.fields)

def applies (r : EventRule) (e : Event) : Bool :=
  r.target.all (fun t => (afterStart t e.target.toList).isSome) && r.fields.all fun f => String.ofList f ∈ e.fields

end EventRule

structure Filter where
  rules : List EventRule := []
  hasDynamic : Bool := false

namespace Filter

/-- Rules in order, with one more. -/
def place (r : EventRule) : List EventRule → List EventRule
  | [] => [r]
  | q :: rest =>
    match r.compareTo q with
    | .lt => r :: q :: rest
    | .eq => r :: rest
    | .gt => q :: place r rest

def add (f : Filter) (r : EventRule) : Filter := { f with rules := place r f.rules }

def addDirective (f : Filter) (d : Directive) : Filter :=
  if d.isStatic then f.add ⟨d.level, d.target, d.fields.map (·.1)⟩ else { f with hasDynamic := true }

/-- The filter of a list of directives; without any, errors pass. -/
def ofDirectives (ds : List Directive) : Filter :=
  let f := ds.foldl addDirective {}
  let f := { f with hasDynamic := ds.any (·.isDynamic) }
  if f.rules.isEmpty && !f.hasDynamic then f.add ⟨.error, none, []⟩ else f

/-- The filter of a text of directives between commas, each of which must be well formed. -/
def ofText? (text : String) : Option Filter :=
  (((pieces ',' text.toList).filter (!·.isEmpty)).mapM Directive.ofText?).map ofDirectives

def passes (f : Filter) (e : Event) : Bool :=
  match f.rules.find? (·.applies e) with
  | some r => e.level.rank ≤ r.level.rank
  | none => false

end Filter

end ApiContracts.Log

import ApiContracts.Text.Blank
import ApiContracts.Text.Letters
import ApiContracts.Text.Numeral
import ApiContracts.Text.Pieces

/-!
# Log levels and filter directives

A directive lets events through up to a level: those of every target, or those whose target starts with a given text. It may also name a span and fields. A bare level speaks of every target, and a bare target of every level.
-/

namespace ApiContracts.Log

open Text

inductive Level where
  | off
  | error
  | warn
  | info
  | debug
  | trace
  deriving DecidableEq

namespace Level

def all : List Level := [off, error, warn, info, debug, trace]

def rank : Level → Nat
  | off => 0
  | error => 1
  | warn => 2
  | info => 3
  | debug => 4
  | trace => 5

def name : Level → String
  | off => "OFF"
  | error => "ERROR"
  | warn => "WARN"
  | info => "INFO"
  | debug => "DEBUG"
  | trace => "TRACE"

/-- The level of a name or a rank; an empty text is the level of errors. -/
def ofText? (cs : List Char) : Option Level :=
  match bounded 10 5 cs with
  | some n => all[n]?
  | none => if cs.isEmpty then some error else all.find? fun l => sameLetters l.name (String.ofList cs)

end Level

structure Directive where
  level : Level := .trace
  target : Option (List Char) := none
  span : Option (List Char) := none
  /-- The fields it names, each with whether a value is asked for. -/
  fields : List (List Char × Bool) := []

namespace Directive

/-- A span or a field makes a directive depend on the place of an event. -/
def isDynamic (d : Directive) : Bool := d.span.isSome || !d.fields.isEmpty

def isStatic (d : Directive) : Bool := d.span.isNone && !d.fields.any (·.2)

/-- What a directive is made of so far, by the place where the part that is being read started. -/
inductive Reading where
  | start
  | levelOrTarget (place : Nat)
  | span (place : Nat)
  | field (place : Nat)
  | fieldsEnd
  | targetEnd
  | level (place : Nat)

def slice (cs : List Char) (start stop : Nat) : List Char := (cs.take stop).drop start

/-- A field from its text; what stands behind an equals sign is a value. -/
def fieldOf (cs : List Char) : Option (List Char × Bool) :=
  if cs.isEmpty then none
  else match cut '=' cs with
    | some (name, _) => some (name, true)
    | none => some (cs, false)

def step (text : List Char) (d : Directive) (reading : Reading) (i : Nat) (c : Char) : Option (Directive × Reading) :=
  match reading with
  | .start =>
    if c = '[' then some (d, .span (i + 1))
    else if c ∈ ['-', ':', '_'] || c.isAlphanum || 0x80 ≤ c.toNat then some (d, .levelOrTarget i)
    else none
  | .levelOrTarget place =>
    if c = '=' then some ({ d with target := some (slice text place i) }, .level (i + 1))
    else if c = '[' then some ({ d with target := some (slice text place i) }, .span (i + 1))
    else some (d, reading)
  | .span place =>
    if c = ']' then some ({ d with span := some (slice text place i) }, .targetEnd)
    else if c = '\x7b' then
      let name := slice text place i
      some ({ d with span := if name.isEmpty then none else some name }, .field (i + 1))
    else some (d, reading)
  | .field place =>
    if c = '\x7d' || c = ',' then
      (fieldOf (slice text place i)).map fun f =>
        ({ d with fields := d.fields ++ [f] }, if c = ',' then .field (i + 1) else .fieldsEnd)
    else some (d, reading)
  | .fieldsEnd => if c = ']' then some (d, .targetEnd) else none
  | .targetEnd => if c = '=' then some (d, .level (i + 1)) else none
  | .level _ => some (d, reading)

def steps (text : List Char) (d : Directive) (reading : Reading) (i : Nat) : List Char → Option (Directive × Reading)
  | [] => some (d, reading)
  | c :: cs => (step text d reading i c).bind fun (d, reading) => steps text d reading (i + 1) cs

/-- The directive that a text spells. Blanks around it are passed over, but places in it are counted with them. -/
def ofText? (text : List Char) : Option Directive :=
  (steps text {} .start 0 (trim text)).bind fun (d, reading) =>
    match reading with
    | .levelOrTarget place =>
      let word := text.drop place
      match Level.ofText? word with
      | some level => some { d with level }
      | none => some { d with target := some word }
    | .level place =>
      let word := text.drop place
      if word.isEmpty then some { d with level := .trace } else (Level.ofText? word).map fun level => { d with level }
    | .targetEnd => some d
    | _ => none

end Directive

end ApiContracts.Log

import ApiContracts.Document.Node
import ApiContracts.Yaml.Cursor
import ApiContracts.Decimal.Reading
import ApiContracts.Text.Pieces

/-!
# The meaning of scalars

A plain scalar is null, a boolean, a number or a text, by the first of these that its characters spell. Integers may be written in four bases and are exact; a run of digits with zeros in front is a text, and so is a number too large for a double. A tag of the core schema asks for one meaning only.
-/

namespace ApiContracts.Yaml

open Text Decimal

def nullWords : List String := ["null", "Null", "NULL", "~"]

def boolean? (s : String) : Option Bool :=
  if s ∈ ["true", "True", "TRUE"] then some true else if s ∈ ["false", "False", "FALSE"] then some false else none

def unsigned (signs : List Char) : List Char → List Char
  | c :: cs => if c ∈ signs then cs else c :: cs
  | [] => []

/-- Digits with a zero in front, which are no number. -/
def isPaddedDigits (cs : List Char) : Bool :=
  match unsigned ['-', '+'] cs with
  | '0' :: d :: rest => (d :: rest).all Char.isDigit
  | _ => false

def bases : List (Char × Nat) := [('x', 16), ('o', 8), ('b', 2)]

def based? : List Char → Option Nat
  | '0' :: letter :: digits => (bases.lookup letter).bind fun base => natural base digits
  | _ => none

def integer? (cs : List Char) : Option Int :=
  let positive := unsigned ['+'] cs
  let magnitude := unsigned ['-'] cs
  match based? positive, (if magnitude.length < cs.length then based? magnitude else none) with
  | some n, _ => some n
  | none, some n => some (-(n : Int))
  | none, none =>
    if isPaddedDigits cs then none
    else if magnitude.length < cs.length then (natural 10 magnitude).map fun n => -(n : Int)
    else (natural 10 positive).map fun n => n

def special? (cs : List Char) : Option Binary64 :=
  let s := String.ofList cs
  let u := String.ofList (unsigned ['+'] cs)
  if u ∈ [".inf", ".Inf", ".INF"] then some ⟨0x7ff0000000000000⟩
  else if s ∈ ["-.inf", "-.Inf", "-.INF"] then some ⟨0xfff0000000000000⟩
  else if s ∈ [".nan", ".NaN", ".NAN"] then some ⟨0x7ff8000000000000⟩
  else none

/-- A double; infinities and the like have names of their own. -/
def float? (cs : List Char) : Option Binary64 :=
  match special? cs with
  | some x => some x
  | none =>
    match cs with
    | '+' :: '+' :: _ => none
    | '+' :: '-' :: _ => none
    | '+' :: rest => finite? rest
    | cs => finite? cs

/-- The integers that a document may hold: sixty-four bits with or without a sign. -/
def isWordSized (n : Int) : Bool := -(twoTo 63 : Int) ≤ n && n < (twoTo 64 : Int)

/-- The node of an integer. One beyond a word is refused, and one beyond two words is no integer at all. -/
def integerNode? (cs : List Char) : Option (Except Fault Node) :=
  (integer? cs).bind fun n =>
    if isWordSized n then some (.ok (.int n))
    else if -(twoTo 127 : Int) ≤ n ∧ n < (twoTo 128 : Int) then some (.error .wideInteger)
    else none

/-- The meaning of a plain scalar without a tag. -/
def plainNode (cs : List Char) : Except Fault Node :=
  let s := String.ofList cs
  if cs.isEmpty || s ∈ nullWords then .ok .null
  else
    match boolean? s, integerNode? cs with
    | some b, _ => .ok (.bool b)
    | none, some n => n
    | none, none =>
      match (if isPaddedDigits cs then none else float? cs) with
      | some x => .ok (.double x)
      | none => .ok (.str s)

def coreTag (name : String) : List Char := ("tag:yaml.org,2002:" ++ name).toList

/-- The meaning of a scalar. A tag that starts with an exclamation mark makes it a variant of a type, which no document here has. -/
def scalarNode (tag : Option (List Char)) (text : List Char) (plain : Bool) : Except Fault Node :=
  let s := String.ofList text
  let orRefuse : Option Node → Except Fault Node
    | some n => .ok n
    | none => .error .taggedValue
  match tag with
  | none => if plain then plainNode text else .ok (.str s)
  | some t =>
    if t.head? = some '!' then .error .taggedValue
    else if t = coreTag "bool" then orRefuse ((boolean? s).map .bool)
    else if t = coreTag "int" then (integerNode? text).getD (.error .taggedValue)
    else if t = coreTag "float" then orRefuse ((float? text).map .double)
    else if t = coreTag "null" then orRefuse (if s ∈ nullWords then some .null else none)
    else .ok (.str s)

end ApiContracts.Yaml

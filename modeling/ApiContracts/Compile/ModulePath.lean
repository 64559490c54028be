import ApiContracts.Compile.Name
import ApiContracts.Text.Pieces

/-!
# Module paths

Emitted modules form a tree, and a file's path without its extension gives the place of its module in it. `relative` is the way from one module to another: up to the deepest module they share, and down again.
-/

namespace ApiContracts.Compile

open Text

/-- The characters behind every `./` at the start. -/
def dropHere : List Char → List Char
  | '.' :: '/' :: rest => dropHere rest
  | cs => cs

/-- The modules on the way to the one at a path; empty steps and steps that stay are left out. -/
def components (path : String) : List String :=
  let steps := (pieces '/' (dropHere path.toList)).filter fun step => !step.isEmpty && step != ['.']
  steps.map fun step => (fieldName (String.ofList step)).text

def sharedLength : List String → List String → Nat
  | a :: as, b :: bs => if a = b then sharedLength as bs + 1 else 0
  | _, _ => 0

/-- The way between modules, one word a step; the last component of the target is always named. -/
def steps (source target : List String) : List String :=
  let shared := min (sharedLength source target) (target.length - 1)
  List.replicate (source.length - shared) "super" ++ target.drop shared

/-- The way from the module at one path to the module at another. -/
def relativePath (source target : String) : String := "::".intercalate (steps (components source) (components target))

end ApiContracts.Compile

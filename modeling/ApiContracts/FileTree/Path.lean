import ApiContracts.Text.Pieces

/-!
# Paths

Paths of files as texts, their steps separated by slashes. Empty steps and steps that stay in place do not count, except for a single dot at the very start. A path that starts with a slash is absolute, and joining it to a directory discards the directory.
-/

namespace ApiContracts.Path

open Text

def isAbsolute (path : String) : Bool := path.toList.head? == some '/'

/-- The path of `path` seen from `base`. -/
def join (base path : String) : String :=
  if isAbsolute path then path
  else if base.isEmpty || base.toList.getLast? == some '/' then base ++ path
  else base ++ "/" ++ path

/-- A reversed path without the steps at its end that do not count. -/
def dropIdleEnd : List Char → List Char
  | ['/'] => ['/']
  | '/' :: rest => dropIdleEnd rest
  | ['.', '/'] => ['/']
  | '.' :: '/' :: rest => dropIdleEnd ('/' :: rest)
  | cs => cs
termination_by cs => cs.length

/-- The last step, and the path before it; neither for an empty path and for the root. -/
def split? (path : String) : Option (String × String) :=
  match dropIdleEnd path.toList.reverse with
  | [] => none
  | ['/'] => none
  | cs =>
    let last := cs.takeWhile (· ≠ '/')
    some (String.ofList (dropIdleEnd (cs.drop last.length)).reverse, String.ofList last.reverse)

def parent? (path : String) : Option String := (split? path).map (·.1)

/-- The name of the file at a path; a path that ends in a dot or two names none. -/
def fileName? (path : String) : Option String :=
  (split? path).bind fun (_, last) => if last = "." ∨ last = ".." then none else some last

/-- What stands behind the last dot of the file's name, unless the dot starts the name. -/
def extension? (path : String) : Option String :=
  (fileName? path).bind fun name =>
    let back := name.toList.reverse
    let ending := back.takeWhile (· ≠ '.')
    if ending.length + 1 < back.length then some (String.ofList ending.reverse) else none

end ApiContracts.Path

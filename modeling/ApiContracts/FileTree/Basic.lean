import ApiContracts.FileTree.Path
import ApiContracts.Text.Quoted
import ApiContracts.Text.Utf8

/-!
# File trees

Files and directories by name, and what a system does with them: reading a file, writing one, and making a directory with all that lead to it. A path is followed name by name from the root or from a working directory; every name but the last has to lead to a directory. What cannot be done leaves the tree as it was.
-/

namespace ApiContracts

open Text

inductive SystemFault where
  | notFound
  | alreadyThere
  | notDirectory
  | isDirectory
  | nameTooLong
  | zeroCharacter
  /-- Any other refusal, by its text. -/
  | other (message : String)
  deriving DecidableEq

def SystemFault.message : SystemFault → String
  | notFound => "No such file or directory (os error 2)"
  | alreadyThere => "File exists (os error 17)"
  | notDirectory => "Not a directory (os error 20)"
  | isDirectory => "Is a directory (os error 21)"
  | nameTooLong => "File name too long (os error 36)"
  | zeroCharacter => "file name contained an unexpected NUL byte"
  | other message => message

inductive FileTree where
  | file (content : String)
  | directory (entries : List (String × FileTree))

namespace FileTree

def empty : FileTree := directory []

instance : Inhabited FileTree := ⟨empty⟩

def isDirectory : FileTree → Bool
  | directory _ => true
  | file _ => false

/-- Entries with a node at a name, in place of what is there. -/
def put (name : String) (node : FileTree) : List (String × FileTree) → List (String × FileTree)
  | [] => [(name, node)]
  | (n, t) :: rest => if n = name then (n, node) :: rest else (n, t) :: put name node rest

def at? : List String → FileTree → Option FileTree
  | [], t => some t
  | _ :: _, file _ => none
  | name :: rest, directory entries => (entries.lookup name).bind (at? rest)

/-- The tree with a node at the names from the root; directories on the way are made. -/
def set : FileTree → List String → FileTree → FileTree
  | _, [], node => node
  | directory entries, name :: rest, node =>
    directory (put name (set ((entries.lookup name).getD empty) rest node) entries)
  | file content, _ :: _, _ => file content

mutual

/-- All files, by their names from the root. -/
def files : FileTree → List (List String × String)
  | file content => [([], content)]
  | directory entries => filesOf entries

def filesOf : List (String × FileTree) → List (List String × String)
  | [] => []
  | (name, t) :: rest => (files t).map (fun (names, content) => (name :: names, content)) ++ filesOf rest

end

end FileTree

structure Disk where
  root : FileTree := .empty
  /-- The names that lead to the working directory. -/
  working : List String := []

namespace Disk

/-- The greatest number of bytes of a name. -/
def maxName : Nat := 255

/-- The greatest number of bytes of a path. -/
def maxPath : Nat := 4095

/-- The steps of a path. One that ends in a slash ends at a directory. -/
def steps (path : String) : List String :=
  let parts := splitText '/' path
  parts.filter (!·.isEmpty) ++ if parts.getLast? = some "" then ["."] else []

/-- The names from the root that steps lead to, which start at a directory. Only the last one may lead nowhere. -/
def follow (root : FileTree) : List String → List String → Except SystemFault (List String)
  | place, [] => .ok place
  | place, step :: rest =>
    if step = "." then follow root place rest
    else if step = ".." then follow root place.dropLast rest
    else if maxName < (bytesOf step).length then .error .nameTooLong
    else
      let next := place ++ [step]
      match rest, root.at? next with
      | [], _ => .ok next
      | _, some (.directory _) => follow root next rest
      | _, some (.file _) => .error .notDirectory
      | _, none => .error .notFound

def resolve (d : Disk) (path : String) : Except SystemFault (List String) :=
  if path.isEmpty then .error .notFound
  else if path.toList.contains '\x00' then .error .zeroCharacter
  else if maxPath < (bytesOf path).length then .error .nameTooLong
  else follow d.root (if Path.isAbsolute path then [] else d.working) (steps path)

def isDirectory (d : Disk) (path : String) : Bool :=
  match d.resolve path with
  | .ok names => (d.root.at? names).any (·.isDirectory)
  | .error _ => false

def read (d : Disk) (path : String) : Except SystemFault String := do
  match d.root.at? (← d.resolve path) with
  | some (.file content) => return content
  | some (.directory _) => throw .isDirectory
  | none => throw .notFound

/-- The disk with a file written, in place of the one there. -/
def write (d : Disk) (path content : String) : Except SystemFault Disk := do
  let names ← d.resolve path
  match d.root.at? names with
  | some (.directory _) => throw .isDirectory
  | _ => return { d with root := d.root.set names (.file content) }

def makeDirectory (d : Disk) (path : String) : Except SystemFault Disk := do
  let names ← d.resolve path
  match d.root.at? names with
  | some _ => throw .alreadyThere
  | none => return { d with root := d.root.set names .empty }

/-- Makes a directory unless it is there. -/
def ensureDirectory (d : Disk) (path : String) : Except SystemFault Disk :=
  match d.makeDirectory path with
  | .ok made => .ok made
  | .error fault => if d.isDirectory path then .ok d else .error fault

/-- Makes a directory and those that lead to it, the outermost first. The number bounds how many there are. -/
def makeDirectoriesUpTo : Nat → Disk → String → Except SystemFault Disk
  | 0, d, _ => .ok d
  | fuel + 1, d, path =>
    if path.isEmpty then .ok d
    else
      match d.ensureDirectory path, Path.parent? path with
      | .error .notFound, some parent => do (← makeDirectoriesUpTo fuel d parent).ensureDirectory path
      | outcome, _ => outcome

def makeDirectories (d : Disk) (path : String) : Except SystemFault Disk :=
  makeDirectoriesUpTo (path.length + 1) d path

end Disk

/-- A path between quotes, as messages show it. -/
def Path.shown (path : String) : String :=
  let write (c : Char) : List Char := if c = '\x27' then ['\\', c] else escapeChar c
  String.ofList ('"' :: path.toList.flatMap write ++ ['"'])

end ApiContracts

import ApiContracts.Compile.Config
import ApiContracts.Toml.Reader

/-!
# Settings of the compiler from a file

A file in TOML may give each setting under its key; other keys do not matter. The mode may also be given as a table with the mode as its only key and nothing in it.
-/

namespace ApiContracts.Compile

open Toml

def isVoid : Item → Bool
  | .array items => items.isEmpty
  | .table _ entries => entries.isEmpty
  | _ => false

def Mode.ofNode? : Item → Option Mode
  | .scalar (.text name) => ofName? name
  | .table _ [(name, item)] => if isVoid item then ofName? name else none
  | _ => none

def textOf? : Item → Option String
  | .scalar (.text s) => some s
  | _ => none

/-- The setting under a key: its default if the key is missing, nothing if it is not as it should be. -/
def setting {α : Type} (entries : Entries) (key : String) (default : α) (read : Item → Option α) : Option α :=
  match entries.lookup key with
  | some item => read item
  | none => some default

/-- The settings in a file, if they are well formed. -/
def Config.ofToml? (content : String) : Option Config := do
  let entries ← Toml.ofText? content
  let given : Config := {}
  return {
    root := ← setting entries "root" given.root textOf?
    runtime := ← setting entries "runtime_crate" given.runtime textOf?
    mode := ← setting entries "mode" given.mode Mode.ofNode? }

end ApiContracts.Compile

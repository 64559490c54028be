import ApiContracts.Shape.Basic

/-!
# Settings of the compiler

Where emitted files go, the library they use, and whether contracts are typed. Every setting has a default.
-/

namespace ApiContracts.Compile

open Json

inductive Mode where
  /-- Typed sections with rules. -/
  | full
  /-- Requests as they come, without rules. -/
  | minimal
  deriving DecidableEq

namespace Mode

def name : Mode → String
  | full => "full"
  | minimal => "minimal"

def names : List String := [full.name, minimal.name]

def ofName? : String → Option Mode
  | "full" => some full
  | "minimal" => some minimal
  | _ => none

end Mode

structure Config where
  /-- The directory, and module, of every emitted file. -/
  root : String := "abstract_api"
  /-- The library that emitted files use. -/
  runtime : String := "abstractapi"
  mode : Mode := .full
  deriving DecidableEq

namespace Config

def declarations : Declarations :=
  [("GenerationMode", .choice Mode.names),
    ("GeneratorConfig", .record
      { name := "GeneratorConfig"
        fields :=
          [⟨"root", .text, some (.str "abstract_api")⟩, ⟨"runtime_crate", .text, some (.str "abstractapi")⟩,
            ⟨"mode", .named "GenerationMode", some (.str "full")⟩] })]

/-- The settings that a settled value holds. -/
def ofSettled (v : Value) : Config :=
  let text (key : String) (default : String) : String := match v.member? key with
    | some (.str s) => s
    | _ => default
  ⟨text "root" "abstract_api", text "runtime_crate" "abstractapi", (Mode.ofName? (text "mode" "full")).getD .full⟩

def ofValue (v : Value) : Except DecodeError Config :=
  (Shape.decode declarations (.named "GeneratorConfig") v).map ofSettled

def toJson (c : Config) : Value :=
  .object [("root", .str c.root), ("runtime_crate", .str c.runtime), ("mode", .str c.mode.name)]

def utilityPath (c : Config) : String := s!"{c.root}/utility"

def serverPath (c : Config) : String := s!"{c.root}/server"

def contractPath (c : Config) (identifier : String) : String := s!"{c.root}/api/{identifier}"

end Config

def sourceFile (modulePath : String) : String := modulePath ++ ".rs"

end ApiContracts.Compile

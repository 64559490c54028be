import ApiContracts.Log.Filter
import ApiContracts.Settings

/-!
# Logging settings

How much is logged, in which form, and where from. The variable that all programs of the kind share overrides the level if it can be read; directives for single targets are added to either, and one that cannot be read is told on the error stream.
-/

namespace ApiContracts.Log

open Text

inductive Format where
  | json
  | pretty
  deriving DecidableEq

def Format.name : Format → String
  | json => "json"
  | pretty => "pretty"

/-- Everything but the one word, in any letter case, means JSON. -/
def Format.ofText (s : String) : Format := if lower s = "pretty" then pretty else json

structure Settings where
  level : String := "info"
  format : Format := .json
  /-- Whether lines are written in the background. -/
  async : Bool := false
  /-- Further directives between commas. -/
  targets : Option String := none
  /-- Whether lines tell the place in the source. -/
  location : Bool := false
  deriving DecidableEq

namespace Settings

def ofEnvironment (env : Environment) : Settings where
  level := (env.lookup "ABSTRACTAPI_LOG_LEVEL").getD "info"
  format := ((env.lookup "ABSTRACTAPI_LOG_FORMAT").map Format.ofText).getD .json
  async := ((env.lookup "ABSTRACTAPI_LOG_ASYNC").map isOn).getD false
  targets := env.lookup "ABSTRACTAPI_LOG_TARGET_FILTER"
  location := ((env.lookup "ABSTRACTAPI_LOG_INCLUDE_LOCATION").map isOn).getD false

def development : Settings := { level := "warn", format := .pretty }

/-- The level that a setting names, and the usual one for every other text. -/
def levelOf (s : Settings) : Level :=
  match lower s.level with
  | "trace" => .trace
  | "debug" => .debug
  | "warn" => .warn
  | "error" => .error
  | _ => .info

def baseFilter (s : Settings) (shared : Option String) : Filter :=
  (shared.bind Filter.ofText?).getD (Filter.ofDirectives [{ level := s.levelOf }])

def targetTexts (s : Settings) : List (List Char) :=
  match s.targets with
  | some t => ((pieces ',' t.toList).map trim).filter (!·.isEmpty)
  | none => []

/-- The filter, given the value of the shared variable. -/
def filter (s : Settings) (shared : Option String) : Filter :=
  (s.targetTexts.filterMap Directive.ofText?).foldl Filter.addDirective (s.baseFilter shared)

def warnings (s : Settings) : List String :=
  (s.targetTexts.filter fun t => (Directive.ofText? t).isNone).map fun t =>
    "Warning: Invalid log filter directive: " ++ String.ofList t

end Settings

def sharedVariable : String := "RUST_LOG"

def alreadyInstalled : String := "Failed to initialize logging"

end ApiContracts.Log

import ApiContracts.Compile.Config
import ApiContracts.Text.Letters
import ApiContracts.Text.Pieces

/-!
# Arguments of the command line

A command is named by the first argument, and its switches follow in any order: `--name value`, `--name=value`, `-n value`, `-nvalue` or `-n=value`. A value that stands by itself is settled only when the next switch or the end is reached, so what is wrong with that switch comes first. Nothing but switches is taken, and no switch twice.
-/

namespace ApiContracts.CommandLine

open Text Compile

inductive Taking where
  | nothing
  | path
  | text
  | mode
  deriving DecidableEq

structure Switch where
  name : String
  letter : Option Char := none
  taking : Taking
  deriving DecidableEq

def Switch.shown (s : Switch) : String :=
  if s.taking = .nothing then s!"--{s.name}"
  else
    let placeholder := String.ofList ((upper s.name).toList.map fun c => if c = '-' then '_' else c)
    s!"--{s.name} <{placeholder}>"

namespace Switch

def spec : Switch := ⟨"spec", some 's', .path⟩

def models : Switch := ⟨"models", none, .path⟩

def schemas : Switch := ⟨"schemas", none, .path⟩

def output : Switch := ⟨"output", some 'o', .path⟩

def config : Switch := ⟨"config", some 'c', .path⟩

def mode : Switch := ⟨"mode", none, .mode⟩

def root : Switch := ⟨"root", none, .text⟩

def runtime : Switch := ⟨"runtime-crate", none, .text⟩

def dryRun : Switch := ⟨"dry-run", none, .nothing⟩

def help : Switch := ⟨"help", some 'h', .nothing⟩

end Switch

inductive UsageFault where
  /-- Nothing was asked for. -/
  | noCommand
  | unknownCommand (name : String)
  | unexpected (argument : String)
  | missingValue (s : Switch)
  | invalidValue (s : Switch) (value : String)
  | unexpectedValue (s : Switch) (value : String)
  | repeated (s : Switch)
  | missingSwitches (ss : List Switch)
  deriving DecidableEq

def purpose : String := "Generate typed server contracts from an API description"

/-- The first line of what is said about a fault. -/
def UsageFault.message : UsageFault → String
  | noCommand => purpose
  | unknownCommand name => s!"error: unrecognized subcommand '{name}'"
  | unexpected argument => s!"error: unexpected argument '{argument}' found"
  | missingValue s => s!"error: a value is required for '{s.shown}' but none was supplied"
  | invalidValue s value => s!"error: invalid value '{value}' for '{s.shown}'"
  | unexpectedValue s value => s!"error: unexpected value '{value}' for '{s.shown}' found; no more were expected"
  | repeated s => s!"error: the argument '{s.shown}' cannot be used multiple times"
  | missingSwitches _ => "error: the following required arguments were not provided:"

/-- The switches that were given, with their values. -/
abbrev Given := List (Switch × String)

def Switch.check (s : Switch) (value : String) : Except UsageFault Unit :=
  if s.taking = .nothing ∨ s.taking = .text then .ok ()
  else if value.isEmpty then .error (.missingValue s)
  else if s.taking = .mode ∧ (Mode.ofName? value).isNone then .error (.invalidValue s value)
  else .ok ()

def give (given : Given) (s : Switch) (value : String) : Except UsageFault Given := do
  if (given.lookup s).isSome then throw (.repeated s)
  s.check value
  return given ++ [(s, value)]

/-- Arguments read so far. The last switch may be unsettled, with the value behind it if that has been read. -/
structure Progress where
  given : Given := []
  unsettled : Option (Switch × Option String) := none
  /-- Whether two dashes have ended the switches. -/
  ended : Bool := false

namespace Progress

/-- The progress with its last switch settled. -/
def settle (p : Progress) : Except UsageFault Progress :=
  match p.unsettled with
  | none => .ok p
  | some (s, none) => .error (.missingValue s)
  | some (s, some value) => (give p.given s value).map fun given => { p with given, unsettled := none }

/-- Takes a switch with what is attached to it; a request for help shows as that switch. -/
def take (p : Progress) (s : Switch) (attached : Option String) : Except UsageFault Progress :=
  match attached with
  | some value =>
    if s.taking = .nothing then .error (.unexpectedValue s value)
    else do
      let p ← p.settle
      return { p with given := ← give p.given s value }
  | none => do
    let p ← p.settle
    if s.taking = .nothing then return { p with given := ← give p.given s "" }
    else return { p with unsettled := some (s, none) }

end Progress

inductive Argument where
  /-- Two dashes alone. -/
  | divider
  | long (name : String) (attached : Option String)
  /-- One dash and letters. -/
  | letters (cs : List Char)
  | plain (text : String)

def Argument.ofText (s : String) : Argument :=
  match s.toList with
  | ['-', '-'] => divider
  | '-' :: '-' :: rest =>
    match cut '=' rest with
    | some (name, value) => long (String.ofList name) (some (String.ofList value))
    | none => long (String.ofList rest) none
  | '-' :: c :: rest => letters (c :: rest)
  | _ => plain s

def attachedTo : List Char → Option String
  | [] => none
  | '=' :: rest => some (String.ofList rest)
  | rest => some (String.ofList rest)

def asksHelp (given : Given) : Bool := (given.lookup .help).isSome

/-- Takes letters behind one dash: flags, up to one for help or to a switch that takes a value. -/
def takeLetters (switches : List Switch) (p : Progress) : List Char → Except UsageFault Progress
  | [] => .ok p
  | c :: rest =>
    match switches.find? (·.letter = some c) with
    | none => .error (.unexpected s!"-{c}")
    | some s =>
      if s.taking = .nothing then do
        let p ← p.take s none
        if asksHelp p.given then return p else takeLetters switches p rest
      else p.take s (attachedTo rest)

def takeArgument (switches : List Switch) (p : Progress) (argument : String) : Except UsageFault Progress :=
  if p.ended then .error (.unexpected argument)
  else
    match Argument.ofText argument with
    | .divider => .ok { p with ended := true }
    | .long name attached =>
      match switches.find? (·.name = name) with
      | some s => p.take s attached
      | none => .error (.unexpected s!"--{name}")
    | .letters cs => takeLetters switches p cs
    | .plain text =>
      match p.unsettled with
      | some (s, none) => .ok { p with unsettled := some (s, some text) }
      | _ => .error (.unexpected text)

/-- Takes arguments one by one; a request for help ends the reading. -/
def takeArguments (switches : List Switch) : Progress → List String → Except UsageFault Progress
  | p, [] => p.settle
  | p, argument :: rest => do
    let p ← takeArgument switches p argument
    if asksHelp p.given then return p else takeArguments switches p rest

structure GenerateOptions where
  spec : String
  models : Option String := none
  schemas : Option String := none
  output : String
  dryRun : Bool := false
  deriving DecidableEq

/-- Where the settings of the compiler come from: a file, and switches that override it. -/
structure ConfigOptions where
  file : Option String := none
  mode : Option Mode := none
  root : Option String := none
  runtime : Option String := none
  deriving DecidableEq

inductive Command where
  | help
  | generate (options : GenerateOptions) (config : ConfigOptions)
  | inspect (spec : String) (config : ConfigOptions)
  deriving DecidableEq

def configOptions (given : Given) : ConfigOptions where
  file := given.lookup .config
  mode := (given.lookup .mode).bind Mode.ofName?
  root := given.lookup .root
  runtime := given.lookup .runtime

/-- The values of switches that a command cannot do without. -/
def require (given : Given) (needed : List Switch) : Except UsageFault (Switch → String) :=
  match needed.filter fun s => (given.lookup s).isNone with
  | [] => .ok fun s => (given.lookup s).getD ""
  | missing => .error (.missingSwitches missing)

def generateSwitches : List Switch :=
  [.spec, .models, .schemas, .output, .config, .mode, .root, .runtime, .dryRun, .help]

def inspectSwitches : List Switch := [.spec, .config, .root, .help]

def readGenerate (arguments : List String) : Except UsageFault Command := do
  let given := (← takeArguments generateSwitches {} arguments).given
  if asksHelp given then return .help
  let value ← require given [.spec, .output]
  return .generate
    { spec := value .spec
      models := given.lookup .models
      schemas := given.lookup .schemas
      output := value .output
      dryRun := (given.lookup .dryRun).isSome }
    (configOptions given)

def readInspect (arguments : List String) : Except UsageFault Command := do
  let given := (← takeArguments inspectSwitches {} arguments).given
  if asksHelp given then return .help
  let value ← require given [.spec]
  return .inspect (value .spec) (configOptions given)

def commandNames : List String := ["generate", "inspect", "help"]

/-- Help may name the commands that it is about. -/
def readHelp : List String → Except UsageFault Command
  | [] => .ok .help
  | topic :: rest => if topic ∈ commandNames then readHelp rest else .error (.unknownCommand topic)

/-- The command of the arguments. Two dashes in front of a command's name make it an argument that nobody expects. -/
def Command.ofArguments : List String → Except UsageFault Command
  | [] => .error .noCommand
  | argument :: rest =>
    if argument = "generate" then readGenerate rest
    else if argument = "inspect" then readInspect rest
    else if argument = "help" then readHelp rest
    else
      match Argument.ofText argument with
      | .divider =>
        match rest with
        | [] => .error .noCommand
        | next :: _ => .error (if next ∈ commandNames then .unexpected next else .unknownCommand next)
      | .plain text => .error (.unknownCommand text)
      | _ => (takeArgument [.help] {} argument).map fun _ => .help

end ApiContracts.CommandLine

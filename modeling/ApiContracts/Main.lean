import ApiContracts.CommandLine.Run

/-!
# The program

Reads the arguments, the environment and the files that a command names, and takes the steps that the command decides on. The status is two for faulty arguments and one for a command that fails.
-/

namespace ApiContracts.CommandLine

/-- The refusal of a system, as the library knows it. -/
def faultOfError : IO.Error → SystemFault
  | .noFileOrDirectory .. => .notFound
  | .alreadyExists .. => .alreadyThere
  | .inappropriateType _ code _ => if code = 21 then .isDirectory else .notDirectory
  | e => .other (toString e)

def attempt {α : Type} (action : IO α) : IO (Except SystemFault α) := do
  try
    return .ok (← action)
  catch e =>
    return .error (faultOfError e)

/-- The contents of files, or why they cannot be read. -/
def readFiles (paths : List String) : IO Reading := do
  let found ← paths.mapM fun (path : String) => do return (path, ← attempt (IO.FS.readFile path))
  return fun path => (found.lookup path).getD (.error .notFound)

def readVariables : IO Environment := do
  let names := ["ABSTRACTAPI_LOG_LEVEL", "ABSTRACTAPI_LOG_FORMAT", "ABSTRACTAPI_LOG_ASYNC",
    "ABSTRACTAPI_LOG_TARGET_FILTER", "ABSTRACTAPI_LOG_INCLUDE_LOCATION"]
  let found ← names.mapM fun name => do return (← IO.getEnv name).map fun value => (name, value)
  return found.filterMap id

/-- Takes a step, and answers why it failed if it did. -/
def takeStep : Step → IO (Option Failure)
  | .say line => do
    IO.println line
    return none
  | .makeDirectories path => do
    match ← attempt (IO.FS.createDirAll path) with
    | .ok _ => return none
    | .error fault => return some (.noDirectory path fault)
  | .write path content => do
    match ← attempt (IO.FS.writeFile path content) with
    | .ok _ => return none
    | .error fault => return some (.notWritten path fault)

/-- Takes steps up to the first that fails. -/
def takeAll : List Step → IO (Option Failure)
  | [] => return none
  | step :: rest => do
    match ← takeStep step with
    | some failure => return some failure
    | none => takeAll rest

/-- Runs a command, and answers the status of the process. -/
def runCommand (command : Command) : IO UInt32 := do
  for warning in (logSettings (← readVariables)).warnings do
    IO.eprintln warning
  let outcome ← match command.steps (← readFiles command.inputs) with
    | .ok steps => takeAll steps
    | .error failure => pure (some failure)
  match outcome with
  | none => return 0
  | some failure =>
    IO.eprintln (failureLine failure)
    return 1

end ApiContracts.CommandLine

open ApiContracts.CommandLine in
def main (arguments : List String) : IO UInt32 := do
  match Command.ofArguments arguments with
  | .ok .help =>
    IO.println purpose
    return 0
  | .ok command => runCommand command
  | .error fault =>
    IO.eprintln fault.message
    return 2

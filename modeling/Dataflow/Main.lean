import Dataflow.CommandLine.Run

set_option autoImplicit false

namespace Dataflow.CommandLine

def readText? (path : String) : IO (Option String) := do
  try
    return some (← IO.FS.readFile path)
  catch _ =>
    return none

def readDotenv? : IO (Option String) := do
  let depth := ((← IO.currentDir).toString.splitOn "/").length
  for level in List.range depth do
    if let some text ← readText? (String.join (List.replicate level "../") ++ ".env") then
      return some text
  return none

def readEnvironment (names : List String) : IO Environment :=
  names.filterMapM fun name => do return (← IO.getEnv name).map fun value => (name, value)

def readFiles (paths : List String) : IO (List (String × String)) :=
  paths.filterMapM fun path => do return (← readText? path).map fun text => (path, text)

def readVariables (dotenv : Option String) : IO Environment :=
  readEnvironment (variableNames ++ Dotenv.names ((dotenv.map Dotenv.assignments).getD []))

def readSettings (environment : Environment) : IO Environment := do
  let profile := (Config.ofEnvironment environment).profile
  return environment ++ (← readEnvironment (Config.keys.flatMap (settingNames profile)))

def answer (environment : Environment) (arguments : List String) : IO Outcome := do
  match Options.read environment arguments with
  | .error stop => return .ofStop stop
  | .ok options =>
    let files ← readFiles options.paths
    return options.call (fun path => files.lookup path) (← readSettings environment)

end Dataflow.CommandLine

open Dataflow CommandLine in
def main (arguments : List String) : IO UInt32 := do
  let dotenv ← readDotenv?
  let outcome ← match supplied (← readVariables dotenv) dotenv with
    | .error error => pure (Outcome.unsupplied error)
    | .ok environment => answer environment arguments
  (← IO.getStdout).putStr outcome.output
  if let some text := outcome.diagnostic then
    (← IO.getStderr).putStrLn text
  return UInt32.ofNat outcome.exitCode

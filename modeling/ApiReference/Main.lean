import ApiReference.CommandLine.Run
import ApiReference.Json.Reader
import ApiReference.Settings.Layers
import ApiReference.ToolServer.Reply

/-!
# The program

Reads arguments, settings and messages, and prints what the library answers. The program has no
network of its own, so the web is out of its reach.
-/

namespace ApiReference.Program
open ApiReference.CommandLine

def readFile? (path : String) : IO (Option String) := do
  try
    return some (← IO.FS.readFile path)
  catch _ => return none

/-- The file that holds the settings unless another one is named. -/
def defaultFile : IO String := do
  return (← IO.getEnv "HOME").getD "" ++ "/.augments/config.toml"

/-- The variables of the environment that are settings. -/
def environment : IO (List (Text × Text)) := do
  let found ← Settings.knownVariables.mapM fun name => do
    return (← IO.getEnv (String.ofList name)).map fun value => (name, value.toList)
  return found.filterMap id

/-- Replies to messages, one a line, until there are no more. -/
partial def serve (service : Service (Web.Connection Unit))
    (session : Session (Web.Connection Unit)) : IO Unit := do
  let line ← (← IO.getStdin).getLine
  if line.isEmpty then return
  let (reply, session) :=
    match Json.readOrMessage line.toList with
    | .ok message => ToolServer.handle service message session
    | .error _ => (none, session)
  match reply with
  | some reply =>
    let out ← IO.getStdout
    out.putStrLn (String.ofList reply.compact)
    out.flush
  | none => pure ()
  serve service session

/-- Runs a command with settings and returns its exit code. -/
def run (settings : Settings) (command : Option Command) : IO UInt32 := do
  if command == some .serve then
    match webService Web.unreachable settings () with
    | .ok (service, session) => serve service session; return 0
    | .error e => IO.eprintln (String.ofList e.message); return 1
  else
    let (outcome, _) := runCommand Web.unreachable settings () command
    IO.print (String.ofList outcome.output)
    return UInt32.ofNat outcome.exitCode

end ApiReference.Program

open ApiReference

/-- Runs the program with its arguments. -/
def main (arguments : List String) : IO UInt32 := do
  match CommandLine.Invocation.ofArguments (arguments.map String.toList) with
  | .error refusal => return UInt32.ofNat refusal.exitCode
  | .ok invocation =>
    let path ← match invocation.configFile with
      | some path => pure (String.ofList path)
      | none => Program.defaultFile
    let file ← Program.readFile? path
    match Settings.load (file.map String.toList) (← Program.environment) with
    | .error problem => IO.eprintln (String.ofList problem.failure.message); return 1
    | .ok settings => Program.run settings invocation.command

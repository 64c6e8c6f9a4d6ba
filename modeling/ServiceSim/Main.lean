import ServiceSim.Cli.Usage
import ServiceSim.Cli.Response

/-!
# The program

The command line: it reads the files that a command names, asks for the response, prints what it
says and writes what it writes.  The log is shown on the error output.
-/

namespace ServiceSim.Cli

/-- More steps than any run will take. -/
def stepLimit : Nat := Nat.pow 2 62

/-- The files that a command reads. -/
def Command.paths : Command → List String
  | initConfig _ _ => []
  | validate model => [model]
  | run options => options.model :: options.config.toList

/-- The text of a file, if it can be read. -/
def readText (path : String) : IO (Option String) := do
  try
    return some (← IO.FS.readFile path)
  catch _ =>
    return none

/-- Writes a file by way of a temporary one. -/
def writeOutput (output : Output) : IO (Option WriteFault) := do
  try
    IO.FS.writeFile output.temporary output.text
  catch _ =>
    return some .notCreated
  try
    IO.FS.rename output.temporary output.path
    return none
  catch cause =>
    return some (.notRenamed (toString cause))

/-- The lines of a chain of messages. -/
def failureLines : List String → List String
  | [] => []
  | [message] => ["Error: " ++ message]
  | [message, cause] => ["Error: " ++ message, "", "Caused by:", "    " ++ cause]
  | message :: causes =>
    ["Error: " ++ message, "", "Caused by:"] ++
      causes.mapIdx fun i cause => "    " ++ toString i ++ ": " ++ cause

/-- Fails with a chain of messages. -/
def fail (messages : List String) : IO UInt32 := do
  (failureLines messages).forM IO.eprintln
  return 1

/-- Prints a response and writes its file. -/
def present (r : Response) : IO UInt32 := do
  (r.log.lines r.level).forM IO.eprintln
  r.lines.forM IO.println
  match r.output with
  | none => if r.failure.isEmpty then return 0 else fail r.failure
  | some output =>
    match ← writeOutput output with
    | some fault => fail (output.failure fault)
    | none =>
      IO.println output.notice
      return 0

/-- Performs a command. -/
def perform (command : Command) : IO UInt32 := do
  let texts ← command.paths.mapM fun path => return (path, ← readText path)
  match command.respond stepLimit fun path => (texts.lookup path).join with
  | some r => present r
  | none => fail ["the run takes more steps than allowed"]

end ServiceSim.Cli

open ServiceSim.Cli in
/-- The program: 0 for success, 1 for a failure, and 2 for arguments that denote no command. -/
def main (arguments : List String) : IO UInt32 := do
  match Command.ofArguments arguments with
  | .ok command => perform command
  | .error (.help command) =>
    (Usage.help command).forM IO.println
    return 0
  | .error .refused =>
    Usage.programHelp.forM IO.eprintln
    return 2

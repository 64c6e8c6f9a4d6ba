import ServiceSim.Cli.Arguments

/-!
# Commands

What can be asked of the program on its command line: to write a default configuration, to check a
model, and to simulate requests that arrive at equal distances at one service.
-/

namespace ServiceSim.Cli

/-- What a simulation is asked to do. -/
structure RunOptions where
  /-- The path of the model. -/
  model : String
  /-- The path of the configuration, if it is not the default. -/
  config : Option String
  /-- The context that the requests enter. -/
  entry : String
  /-- The service that they call. -/
  service : String
  /-- Their number. -/
  requests : Nat
  /-- The seconds from one arrival to the next. -/
  interarrival : Float
  /-- The seed, if it is not that of the configuration. -/
  seed : Option UInt64
  /-- The path to which the report is written, if it is. -/
  output : Option String

/-- What the program is asked to do. -/
inductive Command where
  /-- Writes the default configuration to a file, with a seed. -/
  | initConfig (path : String) (seed : Option UInt64)
  /-- Checks the model in a file. -/
  | validate (model : String)
  /-- Simulates requests. -/
  | run (options : RunOptions)

namespace Command

/-- The names of the commands, and what each is for. -/
def purposes : List (String × String) :=
  [("init-config", "Write a default simulation config"),
   ("validate", "Check a system model for consistency"),
   ("run", "Simulate requests against one entry service")]

/-- The options of each command. -/
def forms : String → Option (List OptionForm)
  | "init-config" => some
      [⟨"path", some 'p', .path, "Target file", some "simulation.json", false⟩,
       ⟨"seed", none, .whole, "Random seed", none, false⟩]
  | "validate" => some [⟨"model", some 'm', .path, "System model (JSON)", none, true⟩]
  | "run" => some
      [⟨"model", some 'm', .path, "System model (JSON)", none, true⟩,
       ⟨"config", some 'c', .path, "Simulation config (JSON), defaults apply when omitted", none,
         false⟩,
       ⟨"entry", none, .text, "Entry assembly context id", none, true⟩,
       ⟨"service", none, .text, "Service called on the entry context", none, true⟩,
       ⟨"requests", some 'r', .whole, "Number of requests", some "1", false⟩,
       ⟨"interarrival", none, .double, "Simulated seconds between request arrivals", some "1.0",
         false⟩,
       ⟨"seed", none, .whole, "Override the configured seed", none, false⟩,
       ⟨"output", some 'o', .path, "Write the full report as JSON", none, false⟩]
  | _ => none

/-- A number of requests: it fits sixty-four bits. -/
def count? (text : String) : Option Nat := (Number.word? text).map UInt64.toNat

/-- The command of a name with options. -/
def ofAssignment (name : String) (given : Assignment) : Except Misuse Command :=
  match name with
  | "init-config" => do
    let path ← optional given "path" some
    let seed ← optional given "seed" Number.word?
    return .initConfig (path.getD "simulation.json") seed
  | "validate" => do return .validate (← required given "model" some)
  | "run" => do
    let model ← required given "model" some
    let config ← optional given "config" some
    let entry ← required given "entry" some
    let service ← required given "service" some
    let requests ← optional given "requests" count?
    let interarrival ← optional given "interarrival" Number.float?
    let seed ← optional given "seed" Number.word?
    let output ← optional given "output" some
    return .run ⟨model, config, entry, service, requests.getD 1, interarrival.getD 1, seed, output⟩
  | _ => .error .refused

/-- What the command that asks for help leads to: help on the program or on one command, of which it
is one itself. -/
def helpOn : List String → Misuse
  | [] => .help none
  | [name] => if name == "help" || (forms name).isSome then .help (some name) else .refused
  | _ => .refused

/-- The command that arguments denote. -/
def ofArguments : List String → Except Misuse Command
  | [] => .error .refused
  | name :: rest =>
    if name == "help" then .error (helpOn rest)
    else if name == "--help" || name.startsWith "-h" then .error (.help none)
    else match forms name with
      | none => .error .refused
      | some forms =>
        match assignments name forms rest [] with
        | .error misuse => .error misuse
        | .ok given => ofAssignment name given

end Command

end ServiceSim.Cli

import ServiceSim.Cli.Command
import ServiceSim.Cli.Path
import ServiceSim.Json.Writer
import ServiceSim.Model.Encoding
import ServiceSim.Simulation.Encoding
import ServiceSim.Simulation.Files

/-!
# Responses

What the program does when it is asked something.  Given the texts of the files that it reads, a
command comes to lines that are printed, and then to a file that is written or to an error.  An
error is a chain of messages, the outermost first.
-/

namespace ServiceSim.Cli

/-- A file that a command writes. -/
structure Output where
  /-- Its path. -/
  path : String
  /-- What it is to hold. -/
  document : Json
  /-- The messages that come before the cause if it cannot be written. -/
  context : List String
  /-- The line that tells that it has been written. -/
  notice : String

/-- Why a file cannot be written. -/
inductive WriteFault where
  /-- The temporary file cannot be created. -/
  | notCreated
  /-- The temporary file cannot be renamed. -/
  | notRenamed (cause : String)
deriving DecidableEq, Repr

/-- What a command comes to. -/
structure Response where
  /-- What has happened, the latest first. -/
  log : Log
  /-- Up to which level this is shown. -/
  level : LogLevel
  /-- The lines printed. -/
  lines : List String
  /-- The file written at the end. -/
  output : Option Output
  /-- The messages of the error, if there is one. -/
  failure : List String

namespace Response

/-- The response to a command that fails. -/
def failing (messages : List String) : Response := ⟨[], .info, [], none, messages⟩

/-- The response that prints one line. -/
def saying (line : String) : Response := ⟨[], .info, [line], none, []⟩

end Response

namespace Output

/-- The path of the file that is written first and then renamed. -/
def temporary (o : Output) : String := Path.withExtension "tmp" o.path

/-- The text that the file is to hold. -/
def text (o : Output) : String := o.document.pretty

/-- The messages if the file cannot be written. -/
def failure (o : Output) : WriteFault → List String
  | .notCreated => o.context ++ ["Failed to create temp file: " ++ Text.quoted o.temporary]
  | .notRenamed cause =>
    o.context ++
      ["Failed to rename " ++ Text.quoted o.temporary ++ " to " ++ Text.quoted o.path, cause]

end Output

/-! ## Commands -/

/-- Writes the default configuration, with a seed. -/
def initConfig (path : String) (seed : Option UInt64) : Response :=
  let config := { SimulationConfig.default with
    seed := seed.getD SimulationConfig.default.seed }
  ⟨[], .info, [], some ⟨path, config.toJson, ["Failed to save simulation config"],
    "Wrote simulation config to " ++ Text.quoted path⟩, []⟩

/-- Checks a model. -/
def validate (path : String) (text : Option String) : Response :=
  match SystemModel.load path text with
  | .error e => .failing e.messages
  | .ok m => .saying
      ("Model '" ++ m.name ++ "' is valid: " ++ toString m.components.length ++ " components, " ++
        toString m.assemblyContexts.length ++ " assembly contexts, " ++
        toString m.containers.length ++ " containers")

/-- A number of seconds in a summary. -/
def seconds (x : Float) : String := Number.fixed 6 x ++ "s"

/-- The lines that summarise a report. -/
def summary (r : SimulationReport) : List String :=
  ["Simulated time: " ++ r.simulatedTime.text,
   "Requests: " ++ toString r.completed ++ " completed, " ++ toString r.failed ++ " failed, " ++
     toString r.incomplete ++ " incomplete"] ++
  (r.meanResponseTime?.map fun mean => "Mean response time: " ++ seconds mean).toList ++
  r.resources.map fun s =>
    "  " ++ s.container ++ "/" ++ s.resource ++ ": " ++ toString s.served ++ " demands, busy " ++
      seconds s.busyTime ++ ", waiting " ++ seconds s.waitingTime

/-- The messages of an error of a simulation. -/
def causes : SimulationError → List String
  | .model e => [(SimulationError.model e).message, e.message]
  | .resource e => [(SimulationError.resource e).message, e.message]

/-- Submits the requests from a number on, at their times. -/
def submitAll (options : RunOptions) :
    (remaining number : Nat) → Simulation → Except (List String) Simulation
  | 0, _, s => .ok s
  | remaining + 1, number, s =>
    let arrival := SimTime.ofSeconds (Float.ofNat number * options.interarrival)
    match s.submit ⟨options.entry, options.service, [], arrival⟩ with
    | .error e => .error (("Failed to submit request " ++ toString number) :: causes e)
    | .ok (_, s) => submitAll options remaining (number + 1) s

/-- The simulation that is to be run. -/
def prepare (options : RunOptions) (config : SimulationConfig) (read : String → Option String) :
    Except (List String) Simulation :=
  if !(0 ≤ options.interarrival && Binary64.isFinite options.interarrival) then
    .error ["Interarrival time must be a non-negative number"]
  else
    match SystemModel.load options.model (read options.model) with
    | .error e => .error e.messages
    | .ok model =>
      match Simulation.ofModel { config with seed := options.seed.getD config.seed } model with
      | .error e => .error ("Failed to set up simulation" :: causes e)
      | .ok s => submitAll options options.requests 0 s

/-- The configuration that a simulation is asked to use. -/
def configuration (options : RunOptions) (read : String → Option String) :
    Except LoadError SimulationConfig :=
  match options.config with
  | none => .ok .default
  | some path => SimulationConfig.load path (read path)

/-- Simulates requests, if this takes at most `fuel` steps. -/
def runRequests (fuel : Nat) (options : RunOptions) (read : String → Option String) :
    Option Response :=
  match configuration options read with
  | .error e => some (.failing e.messages)
  | .ok config =>
    match prepare options config read with
    | .error messages => some (.failing messages)
    | .ok s =>
      (s.run fuel).map fun (report, s) =>
        ⟨s.kernel.world.log, if config.debug then .debug else .info, summary report,
          options.output.map fun path =>
            ⟨path, report.toJson, [], "Wrote report to " ++ Text.quoted path⟩, []⟩

/-- What a command comes to, given the texts of the files that can be read. -/
def Command.respond (fuel : Nat) (read : String → Option String) : Command → Option Response
  | initConfig path seed => some (Cli.initConfig path seed)
  | validate path => some (Cli.validate path (read path))
  | run options => runRequests fuel options read

end ServiceSim.Cli

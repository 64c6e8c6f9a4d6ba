import ServiceSim.Json.Basic
import ServiceSim.Simulation.Basic

/-!
# Writing configurations and reports as JSON

The documents of configurations and reports.  A value is an object whose one member is named for its
type.  Processes are written as their identities.
-/

namespace ServiceSim

/-- A configuration as a document. -/
def SimulationConfig.toJson (c : SimulationConfig) : Json :=
  .object
    [("seed", .integer c.seed.toNat), ("stop_time", Json.ofOption .double c.stopTime),
     ("debug", .bool c.debug)]

/-- A value as a document. -/
def Value.toJson : Value → Json
  | int n => .object [("Int", .integer n.toInt)]
  | double x => .object [("Double", .double x)]
  | bool b => .object [("Bool", .bool b)]
  | enum s => .object [("Enum", .string s)]

/-- A time as a document. -/
def SimTime.toJson (t : SimTime) : Json := .double t.seconds

/-- The outcome of a request as a document. -/
def RequestOutcome.toJson (o : RequestOutcome) : Json :=
  .object
    [("request", .integer o.request.number), ("process", .integer o.request.process),
     ("assembly_context", .string o.request.entry), ("service", .string o.request.service),
     ("status", .string o.fate.name), ("arrival", o.request.arrival.toJson),
     ("completion", Json.ofOption SimTime.toJson o.fate.time?),
     ("response_time", Json.ofOption .double o.responseTime?),
     ("results", .object (o.fate.results.map fun (name, v) => (name, v.toJson))),
     ("error", Json.ofOption .string o.fate.message?)]

/-- What a resource has done as a document. -/
def ResourceStats.toJson (r : ResourceStats) : Json :=
  .object
    [("container", .string r.container), ("resource", .string r.resource),
     ("demands_served", .integer r.served), ("total_demand", .double r.totalDemand),
     ("busy_time", .double r.busyTime), ("waiting_time", .double r.waitingTime)]

/-- A response time as a document. -/
def ResponseTime.toJson (r : ResponseTime ProcessId) : Json :=
  .object
    [("calculator", .string r.calculator), ("process", .integer r.process),
     ("start", r.start.toJson), ("stop", r.stop.toJson), ("response_time", .double r.seconds)]

/-- A report as a document. -/
def SimulationReport.toJson (r : SimulationReport) : Json :=
  .object
    [("model", .string r.model), ("seed", .integer r.seed.toNat),
     ("simulated_time", r.simulatedTime.toJson),
     ("requests", Json.ofList RequestOutcome.toJson r.requests),
     ("resources", Json.ofList ResourceStats.toJson r.resources),
     ("response_times", Json.ofList ResponseTime.toJson r.responseTimes)]

end ServiceSim

import ServiceSim.Simulation.Config
import ServiceSim.Simulation.Request

/-!
# Simulations

A simulation runs requests on a deployment.  Requests are submitted at any time between runs; a run
lets the kernel go on until no process is left that could, or until the stop time, and reports on
the requests submitted since the run before.  A request that is incomplete by then goes on in later
runs and is not reported on again.
-/

namespace ServiceSim

/-- Why a simulation cannot be set up, or a request is not accepted. -/
inductive SimulationError where
  | model (error : ModelError)
  | resource (error : ResourceError)

/-- The kind of an error, and after a slash that of the error it wraps. -/
def SimulationError.kind : SimulationError → String
  | model e => "Model/" ++ e.kind
  | resource e => "Resource/" ++ e.kind

/-- The message of an error. -/
def SimulationError.message : SimulationError → String
  | model error => "Model error: " ++ error.message
  | resource error => "Resource error: " ++ error.message

/-- The report on a run. -/
structure SimulationReport where
  /-- The name of the model. -/
  model : String
  /-- The seed of the random source. -/
  seed : UInt64
  /-- The simulated time at the end. -/
  simulatedTime : SimTime
  /-- The requests, in the order of submission. -/
  requests : List RequestOutcome
  /-- What the resources have done in all runs so far. -/
  resources : List ResourceStats
  /-- What has been measured in all runs so far. -/
  responseTimes : List (ResponseTime ProcessId)

namespace SimulationReport

/-- The number of requests that have completed. -/
def completed (r : SimulationReport) : Nat := r.requests.countP (·.fate.isCompleted)

/-- The number of requests that have failed. -/
def failed (r : SimulationReport) : Nat := r.requests.countP (·.fate.isFailed)

/-- The number of requests that have not ended. -/
def incomplete (r : SimulationReport) : Nat := r.requests.countP (·.fate.isIncomplete)

/-- The mean of the response times of the requests that have completed, if there are any. -/
def meanResponseTime? (r : SimulationReport) : Option Float :=
  match (r.requests.filter (·.fate.isCompleted)).filterMap (·.responseTime?) with
  | [] => none
  | times => some (times.foldl (· + ·) (-0.0) / Float.ofNat times.length)

end SimulationReport

/-- What has become of a request so far.  Its process tells the completion when it ends, so one that
has not told any is still there, or it has been dropped. -/
def Kernel.fate (k : Kernel Environment Activity) (request : PendingRequest) : Fate :=
  match k.world.completion? request.number with
  | some c => .ofCompletion c
  | none => if k.has request.process then .incomplete else .dropped

/-- A simulation between runs. -/
structure Simulation where
  /-- The configuration. -/
  config : SimulationConfig
  /-- What is simulated. -/
  deployment : Deployment
  /-- The processes, the clock and what the processes share. -/
  kernel : Kernel Environment Activity
  /-- The requests accepted since the last run, in order. -/
  pending : List PendingRequest
  /-- The number of requests accepted so far. -/
  submitted : Nat

namespace Simulation

/-- The simulation of a model.  Its resources are checked before its references. -/
def ofModel (config : SimulationConfig) (model : SystemModel) : Except SimulationError Simulation :=
  match Resources.ofContainers model.containers with
  | .error e => .error (.resource e)
  | .ok resources =>
    match Deployment.ofModel model with
    | .error e => .error (.model e)
    | .ok deployment =>
      let environment := Environment.initial (Source.seeded config.seed) resources
      .ok ⟨config, deployment, Kernel.initial environment, [], 0⟩

/-- Changes what the processes share. -/
def mapEnvironment (f : Environment → Environment) (s : Simulation) : Simulation :=
  { s with kernel := s.kernel.mapWorld f }

/-- Installs a reconfigurator. -/
def withReconfigurator (reconfigurator : Reconfigurator) (s : Simulation) : Simulation :=
  s.mapEnvironment fun env => { env with reconfigurator := reconfigurator }

/-- Logs an event. -/
def note (event : LogEvent) (s : Simulation) : Simulation := s.mapEnvironment (·.note event)

/-! ## Submitting -/

/-- Accepts a request, if its service exists.  It does not arrive before the current time. -/
def submit (spec : RequestSpec) (s : Simulation) :
    Except SimulationError (PendingRequest × Simulation) :=
  match s.deployment.providedService spec.entry spec.service with
  | .error e => .error (.model e)
  | .ok behavior =>
    let arrival := SimTime.later spec.arrival s.kernel.now
    let request : PendingRequest :=
      ⟨s.submitted, s.kernel.spawned, spec.entry, spec.service, arrival⟩
    let activity := Activity.ofRequest s.submitted spec.entry arrival spec.inputs behavior
    .ok (request,
      { s with
        kernel := s.kernel.spawn activity
        pending := s.pending ++ [request]
        submitted := s.submitted + 1 })

/-! ## Running -/

/-- A request with what has become of it so far. -/
def outcome (s : Simulation) (request : PendingRequest) : RequestOutcome :=
  ⟨request, s.kernel.fate request⟩

/-- The report on the requests accepted since the last run. -/
def report (s : Simulation) : SimulationReport where
  model := s.deployment.model.name
  seed := s.config.seed
  simulatedTime := s.kernel.now
  requests := s.pending.map s.outcome
  resources := s.kernel.world.resources.statistics
  responseTimes := s.kernel.world.recorder.responseTimes

/-- Logs what a report tells. -/
def noteReport (r : SimulationReport) (s : Simulation) : Simulation :=
  let events := r.requests.filterMap fun o => o.fate.event? o.request.number
  (events.foldl (fun s event => s.note event) s).note
    (.runEnded r.simulatedTime r.completed r.failed r.incomplete)

/-- Runs until no process is left that could go on, or until the stop time, if this takes at most
`fuel` steps of the kernel. -/
def run (fuel : Nat) (s : Simulation) : Option (SimulationReport × Simulation) :=
  let s := s.note (.runStarted s.pending.length s.config.seed)
  match s.kernel.run (Activity.program s.deployment) (s.config.stopTime.map .ofSeconds) fuel with
  | none => none
  | some kernel =>
    let s := { s with kernel := kernel }
    let r := s.report
    some (r, { s.noteReport r with pending := [] })

end Simulation

end ServiceSim

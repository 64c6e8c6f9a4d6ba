import ServiceSim.Frame.Stack
import ServiceSim.Frame.Usage
import ServiceSim.Kernel.Barrier
import ServiceSim.Log
import ServiceSim.Resource.Journal

/-!
# What processes share

All processes of a simulation draw from one random source, load the same resources and report to the
same recorder.  `Environment` holds this shared state, the barriers at which processes wait for
those they have forked, and what has been reported: the log, the journal of demands and the
completions.

A process waits at one barrier at a time, so barriers are known by the process that waits.
-/

namespace ServiceSim

/-- Decides about reconfigurations.  It gives the same answer to every notification. -/
structure Reconfigurator where
  /-- Whether a notification leads to a reconfiguration. -/
  fires : Bool
  /-- The actions that it has been notified of, the latest first. -/
  notified : List ActionId

namespace Reconfigurator

/-- A reconfigurator that has not been notified. -/
def answering (fires : Bool) : Reconfigurator := ⟨fires, []⟩

/-- The actions that it has been notified of, in order. -/
def observed (r : Reconfigurator) : List ActionId := r.notified.reverse

end Reconfigurator

/-- How a process that reports its end has ended. -/
structure Completion where
  /-- When it ended. -/
  time : SimTime
  /-- The result frame, or the error that ended the interpretation. -/
  result : Except InterpreterError Frame
  /-- The variable stack that it left. -/
  stack : VariableStack
  /-- The assembly contexts that it left, the current one first. -/
  contexts : List ContextId

/-- What the processes of a simulation share. -/
structure Environment where
  /-- The random source. -/
  source : Source
  /-- The resources. -/
  resources : Resources
  /-- The barriers by the process that waits. -/
  barriers : List (ProcessId × Barrier InterpreterError)
  /-- The measurements. -/
  recorder : Recorder ProcessId
  /-- The reconfigurator. -/
  reconfigurator : Reconfigurator
  /-- The number of frames made so far. -/
  frames : Nat
  /-- The completions by the number of the request, the latest first. -/
  completions : List (Nat × Completion)
  /-- What has happened to demands, the latest first. -/
  journal : List DemandEvent
  /-- What has been logged, the latest first. -/
  log : Log

namespace Environment

/-- The environment of a simulation that has not begun. -/
def initial (source : Source) (resources : Resources) : Environment :=
  ⟨source, resources, [], Recorder.empty, Reconfigurator.answering false, 0, [], [], []⟩

/-! ## Reports -/

/-- Logs an event. -/
def note (event : LogEvent) (env : Environment) : Environment :=
  { env with log := event :: env.log }

/-- Enters an event in the journal. -/
def enter (event : DemandEvent) (env : Environment) : Environment :=
  { env with journal := event :: env.journal }

/-- Reports the completion of a request. -/
def complete (request : Nat) (completion : Completion) (env : Environment) : Environment :=
  { env with completions := (request, completion) :: env.completions }

/-- The completion of a request, if it has been reported. -/
def completion? (env : Environment) (request : Nat) : Option Completion :=
  env.completions.lookup request

/-! ## Frames and samples -/

/-- A frame with an identity that no frame has had before. -/
def newFrame (env : Environment) : Frame × Environment :=
  (Frame.empty env.frames, { env with frames := env.frames + 1 })

/-- A computation run on the random source. -/
def sample {ε α : Type} (env : Environment) (computation : ExceptT ε (StateM Source) α) :
    Except ε α × Environment :=
  let (result, source) := computation env.source
  (result, { env with source := source })

/-- Binds usages, evaluated in `context`, in `target`, and logs the names bound. -/
def bind (env : Environment) (usages : List VariableUsage) (context target : Frame) :
    Option EvalError × Frame × Environment :=
  let outcome := bindUsages usages context target env.source
  let env := { env with source := outcome.source }
  (outcome.failure, outcome.target,
    outcome.names.foldl (fun env name => env.note (.nameBound name)) env)

/-- Samples the inner characterisations of a collection for one element. -/
def resolve (env : Environment) (collection : Frame) (stem : String) (element : Frame) :
    Option EvalError × Frame × Environment :=
  let outcome := resolveInner collection stem element env.source
  (outcome.failure, outcome.target, { env with source := outcome.source })

/-! ## Barriers -/

/-- The barrier at which a process waits.  It is open if none has been set up. -/
def barrier (env : Environment) (owner : ProcessId) : Barrier InterpreterError :=
  (env.barriers.lookup owner).getD (Barrier.new 0)

/-- Takes the barrier of a process away. -/
def dropBarrier (owner : ProcessId) (env : Environment) : Environment :=
  { env with barriers := env.barriers.filter (·.1 != owner) }

/-- Sets up the barrier of a process. -/
def setBarrier (owner : ProcessId) (barrier : Barrier InterpreterError) (env : Environment) :
    Environment :=
  { env with barriers := (owner, barrier) :: (env.dropBarrier owner).barriers }

/-! ## Measurements -/

/-- Takes a time sample of a probe.  A sample that is refused is logged. -/
def measure (env : Environment) (probe label : String) (process : ProcessId) (now : SimTime) :
    Environment :=
  match env.recorder.sample? ⟨probe, label, process, now⟩ with
  | .error e => env.note (.sampleFailed probe e)
  | .ok (some recorder) => { env with recorder := recorder }
  | .ok none => env.note (.sampleDropped probe)

/-- Registers the calculator of a monitored action.  A calculator that is refused is logged. -/
def register (env : Environment) (action : Action) (calculator : Calculator) : Environment :=
  match env.recorder.register? calculator with
  | .error e => env.note (.calculatorRefused action e)
  | .ok (some recorder) =>
    { env with recorder := recorder }.note (.calculatorRegistered calculator.name)
  | .ok none => env

/-- Notifies the reconfigurator of a monitored action. -/
def reconfigure (env : Environment) (action : ActionId) : Environment :=
  let r := env.reconfigurator
  { env with reconfigurator := { r with notified := action :: r.notified } }.note
    (.reconfigurationChecked action r.fires)

end Environment

end ServiceSim

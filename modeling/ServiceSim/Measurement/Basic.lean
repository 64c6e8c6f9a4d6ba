import ServiceSim.Model.System
import ServiceSim.NameMap
import ServiceSim.Time

/-!
# Measurements

Calculators pair the samples of a start probe with those of a stop probe.  A recorder keeps the
calculators that have been registered and the samples of their probes; samples of other probes are
dropped.

Pairing is by process, and the latest start that is still open is paired first, so nested calls from
the same place are paired with their own starts.
-/

namespace ServiceSim

/-- Why a measurement is refused. -/
inductive MeasurementError where
  | emptyProbe (label : String)
  | conflictingCalculator (name : String)
deriving DecidableEq, Repr

/-- The kind of an error, a word for programs that tell errors apart. -/
def MeasurementError.kind : MeasurementError → String
  | emptyProbe _ => "EmptyProbe"
  | conflictingCalculator _ => "ConflictingCalculator"

/-- The message of an error. -/
def MeasurementError.message : MeasurementError → String
  | emptyProbe label => "Probe id must not be empty (label '" ++ label ++ "')"
  | conflictingCalculator name =>
    "Calculator '" ++ name ++ "' is already registered with different probes"

/-- A calculator of response times. -/
structure Calculator where
  /-- Its name. -/
  name : String
  /-- The probe sampled at the start. -/
  startProbe : String
  /-- The probe sampled at the end. -/
  stopProbe : String
  /-- The action measured. -/
  action : ActionId
  /-- What is measured. -/
  metric : MetricKind
deriving DecidableEq, Repr

/-- A sample of a probe. -/
structure TimeSample (Process : Type) where
  /-- The probe. -/
  probe : String
  /-- A text for readers. -/
  label : String
  /-- The process that took it. -/
  process : Process
  /-- When it was taken. -/
  time : SimTime

/-- A start and a stop that belong together. -/
structure ResponseTime (Process : Type) where
  /-- The name of the calculator. -/
  calculator : String
  /-- The process measured. -/
  process : Process
  /-- When it started. -/
  start : SimTime
  /-- When it stopped. -/
  stop : SimTime

/-- The seconds between start and stop. -/
def ResponseTime.seconds {Process : Type} (r : ResponseTime Process) : Float := r.stop.since r.start

/-- The calculators and the samples of their probes. -/
structure Recorder (Process : Type) where
  /-- The calculators by name. -/
  calculators : NameMap Calculator
  /-- The samples, the latest first. -/
  taken : List (TimeSample Process)

namespace Recorder

variable {Process : Type}

/-- A recorder without calculators. -/
def empty : Recorder Process := ⟨[], []⟩

/-- The samples in the order in which they were taken. -/
def samples (r : Recorder Process) : List (TimeSample Process) := r.taken.reverse

/-- Whether a calculator uses a probe. -/
def isMeasured (r : Recorder Process) (probe : String) : Bool :=
  r.calculators.any fun (_, c) => c.startProbe == probe || c.stopProbe == probe

/-- The recorder with a sample, or nothing if no calculator uses its probe. -/
def sample? (r : Recorder Process) (s : TimeSample Process) :
    Except MeasurementError (Option (Recorder Process)) :=
  if s.probe = "" then .error (.emptyProbe s.label)
  else .ok (if r.isMeasured s.probe then some { r with taken := s :: r.taken } else none)

/-- The recorder with a calculator, or nothing if it is registered already. -/
def register? (r : Recorder Process) (c : Calculator) :
    Except MeasurementError (Option (Recorder Process)) :=
  match r.calculators.lookup c.name with
  | some existing => if existing = c then .ok none else .error (.conflictingCalculator c.name)
  | none => .ok (some { r with calculators := NameMap.insert c.name c r.calculators })

/-! ## Pairing -/

/-- Takes the latest open start of a process. -/
def takeOpen [BEq Process] (process : Process) :
    List (Process × SimTime) → Option (SimTime × List (Process × SimTime))
  | [] => none
  | (p, time) :: rest =>
    if p == process then some (time, rest)
    else (takeOpen process rest).map fun (found, others) => (found, (p, time) :: others)

/-- The pairs of a calculator among samples, given the starts that are open, the latest first.  A
stop without an open start is ignored. -/
def pairs [BEq Process] (c : Calculator) :
    List (TimeSample Process) → List (Process × SimTime) → List (ResponseTime Process)
  | [], _ => []
  | s :: rest, starts =>
    if s.probe = c.startProbe then pairs c rest ((s.process, s.time) :: starts)
    else if s.probe = c.stopProbe then
      match takeOpen s.process starts with
      | some (start, others) => ⟨c.name, s.process, start, s.time⟩ :: pairs c rest others
      | none => pairs c rest starts
    else pairs c rest starts

/-- The pairs of every calculator, in the order of their names. -/
def responseTimes [BEq Process] (r : Recorder Process) : List (ResponseTime Process) :=
  r.calculators.flatMap fun (_, c) => pairs c r.samples []

end Recorder

end ServiceSim

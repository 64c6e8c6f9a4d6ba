import ServiceSim.Interpreter.Step

/-!
# Requests

A request enters the system at a service of an assembly context.  It is accepted if this service
exists, and it ends completed, failed, or still incomplete when a run stops.
-/

namespace ServiceSim

/-- A request as it is submitted. -/
structure RequestSpec where
  /-- The context entered. -/
  entry : ContextId
  /-- The service called. -/
  service : String
  /-- What is passed, evaluated in an empty frame. -/
  inputs : List VariableUsage
  /-- When it arrives. -/
  arrival : SimTime

/-- A request that has been accepted and not been reported on yet. -/
structure PendingRequest where
  /-- Its number, in the order of submission. -/
  number : Nat
  /-- The process that serves it. -/
  process : ProcessId
  /-- The context entered. -/
  entry : ContextId
  /-- The service called. -/
  service : String
  /-- When it arrives. -/
  arrival : SimTime

/-- What has become of a request. -/
inductive Fate where
  /-- Its behavior ran to the end, with the values of the result frame. -/
  | completed (time : SimTime) (results : NameMap Value)
  /-- An error ended it. -/
  | failed (time : SimTime) (error : InterpreterError)
  /-- It has not ended. -/
  | incomplete
  /-- Its process is gone and has told no result. -/
  | dropped

namespace Fate

/-- Whether the request has completed. -/
def isCompleted : Fate → Bool
  | completed _ _ => true
  | _ => false

/-- Whether the request has failed. -/
def isFailed : Fate → Bool
  | failed _ _ => true
  | dropped => true
  | _ => false

/-- Whether the request has not ended. -/
def isIncomplete : Fate → Bool
  | incomplete => true
  | _ => false

/-- The name of a fate in reports. -/
def name : Fate → String
  | completed _ _ => "completed"
  | failed _ _ => "failed"
  | incomplete => "incomplete"
  | dropped => "failed"

/-- When the request ended. -/
def time? : Fate → Option SimTime
  | completed time _ => some time
  | failed time _ => some time
  | incomplete => none
  | dropped => none

/-- The values that the request returned. -/
def results : Fate → NameMap Value
  | completed _ results => results
  | _ => []

/-- The error that ended the request. -/
def error? : Fate → Option InterpreterError
  | failed _ error => some error
  | _ => none

/-- What is reported as the error of a request that has failed. -/
def message? : Fate → Option String
  | dropped => some "request process was dropped"
  | fate => fate.error?.map InterpreterError.message

/-- The fate that a completion tells. -/
def ofCompletion (c : Completion) : Fate :=
  match c.result with
  | .ok frame =>
    completed c.time (frame.own.filterMap fun (name, b) => b.value?.map fun v => (name, v))
  | .error e => failed c.time e

/-- What is logged of a request when it is reported on. -/
def event? (number : Nat) : Fate → Option LogEvent
  | completed _ _ => none
  | failed _ error => some (.requestFailed number error)
  | incomplete => some (.requestIncomplete number)
  | dropped => none

end Fate

/-- A request with what has become of it. -/
structure RequestOutcome where
  /-- The request. -/
  request : PendingRequest
  /-- What has become of it. -/
  fate : Fate

/-- The seconds from the arrival of a request to its end. -/
def RequestOutcome.responseTime? (o : RequestOutcome) : Option Float :=
  o.fate.time?.map (·.since o.request.arrival)

end ServiceSim

import ServiceSim.Interpreter.Error
import ServiceSim.Measurement.Basic
import ServiceSim.Model.Behavior
import ServiceSim.Resource.Error

/-!
# The log

What a simulation reports while it runs.  Events are kept as what happened; their texts are made
when the log is shown.
-/

namespace ServiceSim

/-- How important an event is. -/
inductive LogLevel where
  | error
  | warn
  | info
  | debug
  | trace
deriving DecidableEq, Repr

namespace LogLevel

/-- The place of a level, the most important first. -/
def rank : LogLevel → Nat
  | error => 0
  | warn => 1
  | info => 2
  | debug => 3
  | trace => 4

/-- The name of a level before a message. -/
def name : LogLevel → String
  | error => "ERROR"
  | warn => "WARN"
  | info => "INFO"
  | debug => "DEBUG"
  | trace => "TRACE"

/-- All levels. -/
def all : List LogLevel := [error, warn, info, debug, trace]

/-- The level of a name, in lower case. -/
def named? (name : String) : Option LogLevel := all.find? (·.name.toLower == name)

end LogLevel

/-- Something that happened. -/
inductive LogEvent where
  | clockAdvanced (time : SimTime) (wakeups : Nat)
  | behaviorEntered (name : String)
  | actionEntered (action : Action)
  | actionFinished (action : Action)
  | demandIssued (action : Action) (amount : Float) (resource : String) (container : ContainerId)
  | demandFailed (action : Action) (error : ResourceError)
  | serviceStarted (time : SimTime) (process : String) (container : ContainerId)
      (resource : String) (seconds : Float)
  | calculatorRegistered (name : String)
  | calculatorRefused (action : Action) (error : MeasurementError)
  | sampleDropped (probe : String)
  | sampleFailed (probe : String) (error : MeasurementError)
  | nameBound (name : String)
  | serviceCalled (action : Action) (service : String) (context : ContextId)
  | reconfigurationChecked (action : ActionId) (fired : Bool)
  | noTransition (action : Action)
  | iterationsDetermined (count : Int) (action : Action)
  | iterationEntered (iteration : Nat) (action : Action)
  | elementsDetermined (count : Int) (parameter : String) (action : Action)
  | foreignFrame (pushed : FrameId) (error : InterpreterError)
  | behaviorsForked (action : Action) (asynchronous synchronous : Nat)
  | forkEntered (process behavior : String)
  | asynchronousFailed (error : InterpreterError)
  | runStarted (requests : Nat) (seed : UInt64)
  | runEnded (time : SimTime) (completed failed incomplete : Nat)
  | requestFailed (request : Nat) (error : InterpreterError)
  | requestIncomplete (request : Nat)

namespace LogEvent

/-- How important an event is. -/
def level : LogEvent → LogLevel
  | clockAdvanced _ _ => .trace
  | behaviorEntered _ => .debug
  | actionEntered _ => .debug
  | actionFinished _ => .debug
  | demandIssued _ _ _ _ => .debug
  | demandFailed _ _ => .warn
  | serviceStarted _ _ _ _ _ => .trace
  | calculatorRegistered _ => .debug
  | calculatorRefused _ _ => .warn
  | sampleDropped _ => .trace
  | sampleFailed _ _ => .warn
  | nameBound _ => .trace
  | serviceCalled _ _ _ => .debug
  | reconfigurationChecked _ _ => .debug
  | noTransition _ => .debug
  | iterationsDetermined _ _ => .debug
  | iterationEntered _ _ => .trace
  | elementsDetermined _ _ _ => .debug
  | foreignFrame _ _ => .error
  | behaviorsForked _ _ _ => .debug
  | forkEntered _ _ => .debug
  | asynchronousFailed _ => .error
  | runStarted _ _ => .info
  | runEnded _ _ _ _ => .info
  | requestFailed _ _ => .error
  | requestIncomplete _ => .warn

/-- The text of an event. -/
def message : LogEvent → String
  | clockAdvanced time wakeups =>
    "Advanced clock to " ++ time.text ++ " (" ++ toString wakeups ++ " wakeups)"
  | behaviorEntered name => "Interpret behavior '" ++ name ++ "'"
  | actionEntered action => "Interpret " ++ action.text
  | actionFinished action => "Finished " ++ action.text
  | demandIssued action amount resource container =>
    action.text ++ " demands " ++ Number.text Number.plain amount ++ " of '" ++ resource ++
      "' on '" ++ container ++ "'"
  | demandFailed action error =>
    "Resource demand of " ++ action.text ++ " failed: " ++ error.message
  | serviceStarted time process container resource seconds =>
    time.text ++ " serves " ++ process ++ " on " ++ container ++ "/" ++ resource ++ " for " ++
      Number.text Number.plain seconds ++ "s"
  | calculatorRegistered name => "Registered response time calculator '" ++ name ++ "'"
  | calculatorRefused action error =>
    "Could not register calculator for " ++ action.text ++ ": " ++ error.message
  | sampleDropped probe => "Dropped sample of unmeasured probe '" ++ probe ++ "'"
  | sampleFailed probe error => "Time sample '" ++ probe ++ "' failed: " ++ error.message
  | nameBound name => "Bind " ++ name
  | serviceCalled action service context =>
    action.text ++ " calls '" ++ service ++ "' provided by '" ++ context ++ "'"
  | reconfigurationChecked action fired =>
    "Reconfiguration check for action " ++ action ++ ": " ++ (if fired then "true" else "false")
  | noTransition action =>
    "No branch condition holds, no transition taken at " ++ action.text
  | iterationsDetermined count action =>
    "Determined " ++ toString count ++ " iterations for " ++ action.text
  | iterationEntered iteration action =>
    "Iteration " ++ toString iteration ++ " of " ++ action.text
  | elementsDetermined count parameter action =>
    "Iterating " ++ toString count ++ " elements of '" ++ parameter ++ "' in " ++ action.text
  | foreignFrame pushed error =>
    "Left " ++ pushed.text ++ " on a foreign frame: " ++ error.message
  | behaviorsForked action asynchronous synchronous =>
    action.text ++ " forks " ++ toString asynchronous ++ " asynchronous and " ++
      toString synchronous ++ " synchronous behaviors"
  | forkEntered process behavior => "Forked process " ++ process ++ " runs '" ++ behavior ++ "'"
  | asynchronousFailed error => "Asynchronous " ++ error.message
  | runStarted requests seed =>
    "Simulating " ++ toString requests ++ " requests (seed " ++ toString seed ++ ")"
  | runEnded time completed failed incomplete =>
    "Simulation ended at " ++ time.text ++ ": " ++ toString completed ++ " completed, " ++
      toString failed ++ " failed, " ++ toString incomplete ++ " incomplete"
  | requestFailed request error =>
    "Request " ++ toString request ++ " failed: " ++ error.message
  | requestIncomplete request =>
    "Request " ++ toString request ++ " did not complete before the simulation stopped"

/-- The line that shows an event. -/
def line (e : LogEvent) : String := e.level.name ++ " " ++ e.message

end LogEvent

/-- What has happened, the latest first. -/
abbrev Log := List LogEvent

/-- The lines of a log up to a level, in the order of the events. -/
def Log.lines (log : Log) (upTo : LogLevel) : List String :=
  (log.reverse.filter fun e => e.level.rank ≤ upTo.rank).map LogEvent.line

end ServiceSim

import ServiceSim.Frame.Basic
import ServiceSim.Model.Error

/-!
# What aborts an interpretation

The errors that end the interpretation of a behavior, and their messages.  A refused resource demand
or measurement is not among them: it is logged, and interpretation goes on.
-/

namespace ServiceSim

/-- How the frames or assembly contexts of a process got out of order. -/
inductive StackFault where
  | popEmpty
  | noFrame
  | foreignFrame (expected found : FrameId)
  | unbalanced (behavior : String) (after before : Nat)
  | noContext
  | leftContext
  | other (detail : String)
deriving DecidableEq, Repr

/-- The message of a fault. -/
def StackFault.message : StackFault → String
  | popEmpty => "pop from an empty stack"
  | noFrame => "no current frame"
  | foreignFrame expected found =>
    "expected " ++ expected.text ++ " on top of the stack, found " ++ found.text
  | unbalanced behavior after before =>
    "behavior '" ++ behavior ++ "' left " ++ toString after ++ " frames on the stack, found " ++
      toString before ++ " on entry"
  | noContext => "no current assembly context"
  | leftContext => "left more assembly contexts than entered"
  | other detail => detail

/-- Why an interpretation ended early. -/
inductive InterpreterError where
  | model (error : ModelError)
  | stackDiscipline (fault : StackFault)
  | evaluation (error : EvalError)
  | fork (process : String) (error : InterpreterError)
deriving Repr

/-- The kind of an error, and after a slash that of the error it wraps. -/
def InterpreterError.kind : InterpreterError → String
  | model e => "Model/" ++ e.kind
  | stackDiscipline _ => "StackDiscipline"
  | evaluation e => "Evaluation/" ++ e.kind
  | fork _ e => "Fork/" ++ e.kind

/-- The message of an error. -/
def InterpreterError.message : InterpreterError → String
  | model error => "model error: " ++ error.message
  | stackDiscipline fault => "stack discipline violated: " ++ fault.message
  | evaluation error => "evaluation failed: " ++ error.message
  | fork process error => "forked behavior '" ++ process ++ "' failed: " ++ error.message

end ServiceSim

import ServiceSim.Expression.Error

/-!
# What can be wrong with a model

The causes for which a behavior or a system is refused or cannot be interpreted, and the message of
each cause.
-/

namespace ServiceSim

/-- The identifier of an action. -/
abbrev ActionId := String

/-- The identifier of an assembly context, a deployed instance of a component. -/
abbrev ContextId := String

/-- The identifier of a component. -/
abbrev ComponentId := String

/-- The identifier of a resource container. -/
abbrev ContainerId := String

/-- Why the probabilities of a branch are refused. -/
inductive ProbabilityFault where
  | notProbability (p : Float)
  | total (sum : Float)
deriving Repr

/-- The message of a fault. -/
def ProbabilityFault.message : ProbabilityFault → String
  | notProbability p =>
    "probability " ++ Number.text Number.plain p ++ " is not a finite non-negative number"
  | total sum => "probabilities sum to " ++ Number.text Number.plain sum

/-- What is wrong with a model. -/
inductive ModelError where
  | startAction (behavior : String) (found : Nat)
  | duplicateAction (behavior : String) (action : ActionId)
  | missingSuccessor (behavior : String) (action successor : ActionId)
  | successorCycle (behavior : String) (action : ActionId)
  | sharedSuccessor (behavior : String) (action : ActionId)
  | invalidBranchProbabilities (action : ActionId) (fault : ProbabilityFault)
  | mixedBranchTransitions (action : ActionId)
  | negativeIterationCount (action : ActionId) (count : Int64)
  | unknownAssemblyContext (context : ContextId)
  | unknownComponent (component : ComponentId)
  | unknownContainer (container : ContainerId)
  | unboundRole (context : ContextId) (role : String)
  | unknownService (component : ComponentId) (service : String)
  | unallocated (context : ContextId)
deriving Repr

/-- The kind of an error, a word for programs that tell errors apart. -/
def ModelError.kind : ModelError → String
  | startAction _ _ => "StartAction"
  | duplicateAction _ _ => "DuplicateAction"
  | missingSuccessor _ _ _ => "MissingSuccessor"
  | successorCycle _ _ => "SuccessorCycle"
  | sharedSuccessor _ _ => "SharedSuccessor"
  | invalidBranchProbabilities _ _ => "InvalidBranchProbabilities"
  | mixedBranchTransitions _ => "MixedBranchTransitions"
  | negativeIterationCount _ _ => "NegativeIterationCount"
  | unknownAssemblyContext _ => "UnknownAssemblyContext"
  | unknownComponent _ => "UnknownComponent"
  | unknownContainer _ => "UnknownContainer"
  | unboundRole _ _ => "UnboundRole"
  | unknownService _ _ => "UnknownService"
  | unallocated _ => "Unallocated"

/-- The message of an error. -/
def ModelError.message : ModelError → String
  | startAction behavior found =>
    "behavior '" ++ behavior ++ "' must contain exactly one start action (found " ++
      toString found ++ ")"
  | duplicateAction behavior action =>
    "behavior '" ++ behavior ++ "' contains duplicate action id '" ++ action ++ "'"
  | missingSuccessor behavior action successor =>
    "action '" ++ action ++ "' in behavior '" ++ behavior ++ "' points to unknown successor '" ++
      successor ++ "'"
  | successorCycle behavior action =>
    "behavior '" ++ behavior ++ "' loops back to action '" ++ action ++ "' through its successors"
  | sharedSuccessor behavior action =>
    "action '" ++ action ++ "' in behavior '" ++ behavior ++
      "' is the successor of more than one action"
  | invalidBranchProbabilities action fault =>
    "branch '" ++ action ++ "' has invalid transition probabilities: " ++ fault.message
  | mixedBranchTransitions action =>
    "branch '" ++ action ++ "' mixes guarded and probabilistic transitions"
  | negativeIterationCount action count =>
    "loop '" ++ action ++ "' evaluated a negative iteration count " ++ toString count.toInt
  | unknownAssemblyContext context =>
    "assembly context '" ++ context ++ "' is not part of the system"
  | unknownComponent component =>
    "component '" ++ component ++ "' is not part of the repository"
  | unknownContainer container =>
    "resource container '" ++ container ++ "' is not part of the resource environment"
  | unboundRole context role =>
    "role '" ++ role ++ "' of assembly context '" ++ context ++ "' is not connected"
  | unknownService component service =>
    "component '" ++ component ++ "' does not provide service '" ++ service ++ "'"
  | unallocated context => "assembly context '" ++ context ++ "' is not allocated"

end ServiceSim

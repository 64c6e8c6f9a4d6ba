import ServiceSim.Model.Behavior

/-!
# Building behaviors

A builder takes the steps of a behavior one after another and chains them between a start and a stop
action.  The identifier of an action is the name of the behavior and that of the step, so the names
of the steps have to differ.

Specifications are given as texts.  One that does not parse is reported only when the behavior is
built, and of several the first.
-/

namespace ServiceSim

/-- Why a behavior cannot be built. -/
inductive BuildError where
  | expression (error : EvalError)
  | model (error : ModelError)
deriving Repr

/-- The kind of an error, and after a slash that of the error it wraps. -/
def BuildError.kind : BuildError → String
  | expression e => "Expression/" ++ e.kind
  | model e => "Model/" ++ e.kind

/-- The message of an error. -/
def BuildError.message : BuildError → String
  | expression error => "invalid specification: " ++ error.message
  | model error => error.message

/-- A step of a behavior. -/
structure BuildStep where
  /-- The name of the step. -/
  name : String
  /-- What it does, unless one of its specifications does not parse. -/
  kind : Except EvalError ActionKind

/-- A behavior that is being built. -/
structure BehaviorBuilder where
  /-- The name of the behavior. -/
  name : String
  /-- The steps so far, in order. -/
  steps : List BuildStep

namespace BehaviorBuilder

/-- A builder without steps. -/
def new (name : String) : BehaviorBuilder := ⟨name, []⟩

/-- Adds a step. -/
def push (b : BehaviorBuilder) (name : String) (kind : Except EvalError ActionKind) :
    BehaviorBuilder :=
  { b with steps := b.steps ++ [⟨name, kind⟩] }

/-- Adds an action of any kind. -/
def action (b : BehaviorBuilder) (name : String) (kind : ActionKind) : BehaviorBuilder :=
  b.push name (.ok kind)

/-- A demand with its amount as a text. -/
def demand (resource text : String) : Except EvalError ResourceDemand :=
  (Specification.parse text).map fun s => ⟨resource, s⟩

/-- Adds an internal action with demands for resources, each with its amount. -/
def internal (b : BehaviorBuilder) (name : String) (demands : List (String × String)) :
    BehaviorBuilder :=
  b.push name ((demands.mapM fun (resource, text) => demand resource text).map .internal)

/-- Adds an action that sets variables. -/
def setVariable (b : BehaviorBuilder) (name : String) (usages : List VariableUsage) :
    BehaviorBuilder :=
  b.action name (.setVariable usages)

/-- Adds a call. -/
def call (b : BehaviorBuilder) (name : String) (call : ExternalCall) : BehaviorBuilder :=
  b.action name (.externalCall call)

/-- Adds a loop with the number of its iterations. -/
def loop (b : BehaviorBuilder) (name iterations : String) (body : Behavior) : BehaviorBuilder :=
  b.push name ((Specification.parse iterations).map fun s => .loop s body)

/-- Adds an iterator over a collection. -/
def forEach (b : BehaviorBuilder) (name parameter : String) (body : Behavior) : BehaviorBuilder :=
  b.action name (.collectionIterator parameter body)

/-- A guarded transition. -/
def guarded (guard : String) (behavior : Behavior) : Except EvalError BranchTransition :=
  (Specification.parse guard).map fun s => ⟨.guard s, behavior⟩

/-- Adds a branch with guards. -/
def guardedBranch (b : BehaviorBuilder) (name : String) (transitions : List (String × Behavior)) :
    BehaviorBuilder :=
  b.push name ((transitions.mapM fun (guard, behavior) => guarded guard behavior).map .branch)

/-- Adds a branch with probabilities. -/
def probabilisticBranch (b : BehaviorBuilder) (name : String)
    (transitions : List (Float × Behavior)) : BehaviorBuilder :=
  b.action name (.branch (transitions.map fun (p, behavior) => ⟨.probability p, behavior⟩))

/-- Adds a fork. -/
def fork (b : BehaviorBuilder) (name : String) (asynchronous synchronous : List Behavior) :
    BehaviorBuilder :=
  b.action name (.fork asynchronous synchronous)

/-! ## The chain -/

/-- The kinds of the steps, unless one of them is faulty. -/
def kinds (b : BehaviorBuilder) : Except EvalError (List (String × ActionKind)) :=
  b.steps.mapM fun step => step.kind.map fun kind => (step.name, kind)

/-- The identifier of a step. -/
def idOf (behavior step : String) : ActionId := behavior ++ "/" ++ step

/-- Steps as actions, each succeeded by the next. -/
def link (behavior : String) : List (String × ActionKind) → List Action
  | [] => []
  | (name, kind) :: rest =>
    ⟨idOf behavior name, name, rest.head?.map fun next => idOf behavior next.1, kind⟩ ::
      link behavior rest

/-- The behavior of the steps. -/
def build (b : BehaviorBuilder) : Except BuildError Behavior :=
  match b.kinds with
  | .error e => .error (.expression e)
  | .ok kinds =>
    match Behavior.ofActions b.name (link b.name (("start", .start) :: kinds ++ [("stop", .stop)]))
    with
    | .ok behavior => .ok behavior
    | .error e => .error (.model e)

end BehaviorBuilder

end ServiceSim

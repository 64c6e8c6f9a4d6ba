import ServiceSim.Interpreter.Environment

/-!
# Activities

An activity is what one process does: it interprets a behavior, and within it those that actions
enter.  What it still has to do is a list of tasks, the next one first.  An action that enters a
behavior puts the walk along that behavior in front of what follows the action, so the list shows at
every moment which actions, iterations and calls are under way.

An activity belongs to a request, which reports its completion, or it has been forked.
-/

namespace ServiceSim

/-- An external call while it is under way. -/
structure CallSite where
  /-- The action. -/
  action : Action
  /-- What is called. -/
  call : ExternalCall
  /-- The context that calls. -/
  caller : AssemblyContext

namespace CallSite

/-- The name of the calculator that measures the call, which also labels its samples. -/
def label (s : CallSite) : String :=
  "call: " ++ s.action.name ++ " (id: " ++ s.action.id ++ "), AssemblyCtx: " ++ s.caller.name ++
    "(id: " ++ s.caller.id ++ ")"

/-- The calculator that measures the call. -/
def calculator (s : CallSite) : Calculator :=
  ⟨s.label, s.label ++ "_resp1", s.label ++ "_resp2", s.action.id, .responseTime⟩

/-- Whether the call is monitored. -/
def isMonitored (s : CallSite) (d : Deployment) : Bool :=
  (d.monitoring? s.action.id .responseTime).isSome

end CallSite

/-- Something that an activity still has to do. -/
inductive Task where
  /-- Waits until a request arrives. -/
  | arrive (time : SimTime)
  /-- Binds the inputs of a request in its root frame. -/
  | accept (inputs : List VariableUsage)
  /-- Enters the behavior that the process has been forked for. -/
  | enterFork (behavior : Behavior)
  /-- Enters a behavior with a result frame of its own. -/
  | invoke (behavior : Behavior)
  /-- Walks on along a behavior that was entered at a depth of the variable stack. -/
  | walk (behavior : Behavior) (depth : Nat) (actions : List Action)
  /-- Finishes an action. -/
  | finish (action : Action)
  /-- Issues the demands of an action. -/
  | load (action : Action) (container : ContainerId) (demands : List ResourceDemand)
  /-- Is served after a server has been waited for. -/
  | serve (demand : Load)
  /-- Is released when the service that started at a time is over. -/
  | release (demand : Load) (started : SimTime)
  /-- Walks the body of a loop, for the iterations that remain from one on. -/
  | iterate (action : Action) (iteration remaining : Nat) (body : Behavior)
  /-- Walks the body of a collection iterator for the elements that remain. -/
  | visit (action : Action) (parameter : String) (remaining : Nat) (body : Behavior)
  /-- Leaves the frame of an element. -/
  | leave (element : FrameId)
  /-- Returns from a call for which a frame was pushed to the behavior with a result frame. -/
  | return_ (site : CallSite) (pushed : FrameId) (result : Frame)
  /-- Waits for the processes that have been forked synchronously. -/
  | join

/-- To whom an activity matters. -/
inductive Role where
  /-- It serves a request, whose completion it reports. -/
  | request (number : Nat)
  /-- It was forked, and nobody waits for it. -/
  | asynchronous
  /-- It was forked by a process that waits for it. -/
  | synchronous (owner : ProcessId)
deriving DecidableEq, Repr

/-- What a process does. -/
structure Activity where
  /-- The name of the process. -/
  name : String
  /-- To whom it matters. -/
  role : Role
  /-- What is still to be done. -/
  tasks : List Task
  /-- The frames. -/
  stack : VariableStack
  /-- The assembly contexts, the current one first. -/
  contexts : List ContextId
  /-- The result frame of the behavior that was invoked last. -/
  result : Frame

namespace Activity

/-- The activity that interprets a behavior in a context, with a frame as its root. -/
def interpreting (name : String) (number : Nat) (entry : ContextId) (root : Frame)
    (behavior : Behavior) : Activity :=
  ⟨name, .request number, [.invoke behavior], ⟨[root]⟩, [entry], Frame.empty 0⟩

/-- The activity of a request that arrives at a time. -/
def ofRequest (number : Nat) (entry : ContextId) (arrival : SimTime) (inputs : List VariableUsage)
    (behavior : Behavior) : Activity :=
  ⟨"request-" ++ toString number, .request number,
    [.arrive arrival, .accept inputs, .invoke behavior], .empty, [entry], Frame.empty 0⟩

/-- Puts a task before all others. -/
def before (task : Task) (a : Activity) : Activity := { a with tasks := task :: a.tasks }

/-- Puts the walk along a behavior before all tasks. -/
def walking (behavior : Behavior) (a : Activity) : Activity :=
  a.before (.walk behavior a.stack.depth behavior.chain)

/-- The current assembly context. -/
def context (a : Activity) : Except StackFault ContextId :=
  match a.contexts with
  | [] => .error .noContext
  | id :: _ => .ok id

/-- The activity of a process that is forked.  It works on copies of the frames and contexts. -/
def forked (a : Activity) (label : String) (role : Role) (behavior : Behavior) : Activity :=
  ⟨a.name ++ "/" ++ label, role, [.enterFork behavior], a.stack, a.contexts, Frame.empty 0⟩

/-- The activities that a fork adds, the asynchronous ones first.  They are numbered together. -/
def children (a : Activity) (id : ProcessId) (asynchronous synchronous : List Behavior) :
    List Activity :=
  (asynchronous.mapIdx fun i b => a.forked ("async-" ++ toString i) .asynchronous b) ++
    synchronous.mapIdx fun i b =>
      a.forked ("sync-" ++ toString (asynchronous.length + i)) (.synchronous id) b

/-! ## Ends -/

/-- What an activity does in one step: it goes on in some way, or its interpretation ends. -/
inductive Progress where
  /-- It goes on. -/
  | goes (turn : Turn Environment Activity)
  /-- Its interpretation has ended, which is still to be reported. -/
  | ends (env : Environment) (completion : Completion)

/-- The assembly contexts and the error after the calls that are under way have been left. -/
def unwind : List Task → List ContextId → InterpreterError → List ContextId × InterpreterError
  | [], contexts, e => (contexts, e)
  | .return_ _ _ _ :: rest, [], _ => unwind rest [] (.stackDiscipline .leftContext)
  | .return_ _ _ _ :: rest, _ :: contexts, e => unwind rest contexts e
  | _ :: rest, contexts, e => unwind rest contexts e

/-- The end of an interpretation that has run through. -/
def conclude (now : SimTime) (env : Environment) (a : Activity) : Progress :=
  .ends env ⟨now, .ok a.result, a.stack, a.contexts⟩

/-- The end of an interpretation by an error. -/
def abort (now : SimTime) (env : Environment) (a : Activity) (e : InterpreterError) : Progress :=
  let (contexts, e) := unwind a.tasks a.contexts e
  .ends env ⟨now, .error e, a.stack, contexts⟩

/-- The turn in which the end of an interpretation is reported to whom it matters. -/
def report (env : Environment) (a : Activity) (c : Completion) : Turn Environment Activity :=
  let failure : Option InterpreterError :=
    match c.result with
    | .ok _ => none
    | .error e => some (.fork a.name e)
  match a.role with
  | .request number => ⟨env.complete number c, [], [], .finish⟩
  | .asynchronous =>
    ⟨failure.elim env fun e => env.note (.asynchronousFailed e), [], [], .finish⟩
  | .synchronous owner =>
    let (barrier, woken) := (env.barrier owner).arrive failure
    ⟨env.setBarrier owner barrier, woken, [], .finish⟩

end Activity

end ServiceSim

import ServiceSim.Interpreter.Activity

/-!
# Interpreting actions

One step of an activity takes its next task and performs it.  A step that needs simulated time, a
server or another process says so to the kernel; all others go on at once.

A refused demand and a refused measurement are logged and change nothing else.  Every other error
ends the activity: the contexts of the calls under way are left, the frames stay as they are.
-/

namespace ServiceSim.Activity

/-! ## Going on -/

/-- The activity goes on at once. -/
def goOn (env : Environment) (a : Activity) : Progress := .goes ⟨env, [], [], .proceed a⟩

/-- The activity ends by an error of the evaluation, or else goes on. -/
def goOnUnless (now : SimTime) (env : Environment) (a : Activity) :
    Option EvalError → Progress
  | some e => a.abort now env (.evaluation e)
  | none => a.goOn env

/-- The turn in which the service of a demand starts. -/
def startService (now : SimTime) (env : Environment) (a : Activity) (demand : Load) :
    Progress :=
  .goes ⟨env.note (.serviceStarted now a.name demand.container demand.resource demand.service),
    [], [], .hold demand.service (a.before (.release demand now))⟩

/-! ## Demands -/

/-- Issues a demand. -/
def demand (now : SimTime) (id : ProcessId) (env : Environment) (a : Activity) (action : Action)
    (container : ContainerId) (resource : String) (amount : Float) : Progress :=
  let env := (env.note (.demandIssued action amount resource container)).enter
    (.issued a.name container resource amount now)
  match env.resources.issue now id container resource amount with
  | .error e =>
    a.goOn ((env.enter (.refused a.name resource now e)).note (.demandFailed action e))
  | .ok (demand, granted, resources) =>
    let env := { env with resources := resources }
    if granted then a.startService now env demand
    else .goes ⟨env, [], [], .block (a.before (.serve demand))⟩

/-- Issues the first of the demands of an action. -/
def issueNext (now : SimTime) (id : ProcessId) (env : Environment) (a : Activity) (action : Action)
    (container : ContainerId) : List ResourceDemand → Progress
  | [] => a.goOn env
  | next :: rest =>
    match a.stack.current with
    | .error fault => a.abort now env (.stackDiscipline fault)
    | .ok frame =>
      match env.sample (next.specification.evaluateDouble frame.scope) with
      | (.error e, env) => a.abort now env (.evaluation e)
      | (.ok amount, env) =>
        (a.before (.load action container rest)).demand now id env action container next.resource
          amount

/-- Completes a demand. -/
def completeDemand (now : SimTime) (id : ProcessId) (env : Environment) (a : Activity)
    (demand : Load) (started : SimTime) : Progress :=
  let (woken, resources) := env.resources.complete id demand started
  .goes ⟨{ env with resources := resources }.enter (.served a.name demand.resource now),
    woken.toList, [], .proceed a⟩

/-- The container on which an activity works. -/
def container (d : Deployment) (a : Activity) : Except InterpreterError ContainerId :=
  match a.context with
  | .error fault => .error (.stackDiscipline fault)
  | .ok context => (d.containerOf context).mapError .model

/-- Begins an internal action. -/
def beginInternal (d : Deployment) (now : SimTime) (env : Environment) (a : Activity)
    (action : Action) (demands : List ResourceDemand) : Progress :=
  match a.container d with
  | .error e => a.abort now env e
  | .ok container => (a.before (.load action container demands)).goOn env

/-! ## Calls -/

/-- The place of a call, the context that provides the service, and the behavior called. -/
def callee (d : Deployment) (a : Activity) (action : Action) (call : ExternalCall) :
    Except InterpreterError (CallSite × ContextId × Behavior) :=
  match a.context with
  | .error fault => .error (.stackDiscipline fault)
  | .ok id =>
    match d.context id with
    | .error e => .error (.model e)
    | .ok caller =>
      match d.resolveCall caller.id call.role call.service with
      | .error e => .error (.model e)
      | .ok (context, behavior) => .ok (⟨action, call, caller⟩, context, behavior)

/-- Takes the sample that begins a call.  The calculator of a monitored call is registered first. -/
def startMeasuring (d : Deployment) (now : SimTime) (id : ProcessId) (site : CallSite)
    (env : Environment) : Environment :=
  let env := if site.isMonitored d then env.register site.action site.calculator else env
  env.measure site.calculator.startProbe site.label id now

/-- Takes the sample that ends a call.  The reconfigurator is notified of a monitored call. -/
def stopMeasuring (d : Deployment) (now : SimTime) (id : ProcessId) (site : CallSite)
    (env : Environment) : Environment :=
  let env := env.measure site.calculator.stopProbe site.label id now
  if site.isMonitored d then env.reconfigure site.action.id else env

/-- Enters the behavior that a call reaches, with a frame of its inputs. -/
def enterCallee (now : SimTime) (env : Environment) (a : Activity) (site : CallSite)
    (context : ContextId) (behavior : Behavior) : Progress :=
  match a.stack.current with
  | .error fault => a.abort now env (.stackDiscipline fault)
  | .ok frame =>
    let (input, env) := env.newFrame
    match env.bind site.call.inputs frame input with
    | (some e, _, env) => a.abort now env (.evaluation e)
    | (none, input, env) =>
      let called := (a.before (.return_ site input.identity a.result)).before (.invoke behavior)
      { called with stack := a.stack.push input, contexts := context :: a.contexts }.goOn
        (env.note (.serviceCalled site.action site.call.service context))

/-- Begins an external call. -/
def beginCall (d : Deployment) (now : SimTime) (id : ProcessId) (env : Environment) (a : Activity)
    (action : Action) (call : ExternalCall) : Progress :=
  match a.callee d action call with
  | .error e => a.abort now env e
  | .ok (site, context, behavior) =>
    a.enterCallee now (startMeasuring d now id site env) site context behavior

/-- Takes off the frame that has been pushed for a nested scope. -/
def leaveFrame (now : SimTime) (env : Environment) (a : Activity) (pushed : FrameId)
    (go : Activity → Progress) : Progress :=
  match a.stack.popExpecting pushed with
  | .error fault =>
    a.abort now (env.note (.foreignFrame pushed (.stackDiscipline fault))) (.stackDiscipline fault)
  | .ok (_, stack) => go { a with stack := stack }

/-- Binds what a call returns in the frame of the caller: what its usages say, evaluated in the
result frame of the callee, or, if there are none, all that this frame binds itself. -/
def bindReturns (env : Environment) (returns : List VariableUsage) (output target : Frame) :
    Option EvalError × Frame × Environment :=
  if returns.isEmpty then
    (none, output.own.foldl (fun f (name, binding) => f.bind name binding) target, env)
  else env.bind returns output target

/-- Returns from a call to the behavior with a result frame. -/
def finishCall (d : Deployment) (now : SimTime) (id : ProcessId) (env : Environment) (a : Activity)
    (site : CallSite) (pushed : FrameId) (result : Frame) : Progress :=
  match a.contexts with
  | [] => a.abort now env (.stackDiscipline .leftContext)
  | _ :: contexts =>
    { a with contexts := contexts, result := result }.leaveFrame now env pushed fun caller =>
      match caller.stack.current with
      | .error fault => caller.abort now env (.stackDiscipline fault)
      | .ok frame =>
        let (failure, frame, env) := bindReturns env site.call.returns a.result frame
        match caller.stack.replaceTop frame, failure with
        | .error fault, _ => caller.abort now env (.stackDiscipline fault)
        | .ok stack, some e => { caller with stack := stack }.abort now env (.evaluation e)
        | .ok stack, none =>
          { caller with stack := stack }.goOn (stopMeasuring d now id site env)

/-! ## Branches and iterations -/

/-- Chooses a transition and enters its behavior. -/
def branch (now : SimTime) (env : Environment) (a : Activity) (action : Action)
    (transitions : List BranchTransition) : Progress :=
  match a.stack.current with
  | .error fault => a.abort now env (.stackDiscipline fault)
  | .ok frame =>
    let choice := Transition.choose Transition.defaultTolerance action.id
      (transitions.map fun t => (t.condition, t.behavior)) frame.scope
    match env.sample choice with
    | (.error (.model e), env) => a.abort now env (.model e)
    | (.error (.evaluation e), env) => a.abort now env (.evaluation e)
    | (.ok none, env) => a.goOn (env.note (.noTransition action))
    | (.ok (some behavior), env) => (a.walking behavior).goOn env

/-- The number of iterations that a specification gives. -/
def iterationCount (env : Environment) (a : Activity) (action : Action)
    (specification : Specification) : Except InterpreterError Nat × Environment :=
  match a.stack.current with
  | .error fault => (.error (.stackDiscipline fault), env)
  | .ok frame =>
    match env.sample (specification.evaluateInteger frame.scope) with
    | (.error e, env) => (.error (.evaluation e), env)
    | (.ok count, env) =>
      if count.toInt < 0 then
        (.error (.model (.negativeIterationCount action.id count)), env)
      else (.ok count.toInt.toNat, env)

/-- Begins a loop. -/
def beginLoop (now : SimTime) (env : Environment) (a : Activity) (action : Action)
    (iterations : Specification) (body : Behavior) : Progress :=
  match a.iterationCount env action iterations with
  | (.error e, env) => a.abort now env e
  | (.ok count, env) =>
    (a.before (.iterate action 1 count body)).goOn (env.note (.iterationsDetermined count action))

/-- Walks the body of a loop once more, if iterations remain. -/
def nextIteration (env : Environment) (a : Activity) (action : Action) (iteration : Nat)
    (body : Behavior) : (remaining : Nat) → Progress
  | 0 => a.goOn env
  | remaining + 1 =>
    ((a.before (.iterate action (iteration + 1) remaining body)).walking body).goOn
      (env.note (.iterationEntered iteration action))

/-- Begins a collection iterator. -/
def beginIterator (now : SimTime) (env : Environment) (a : Activity) (action : Action)
    (parameter : String) (body : Behavior) : Progress :=
  let size := Specification.variable_
    (parameter ++ "." ++ CharacterisationKind.numberOfElements.name)
  match a.iterationCount env action size with
  | (.error e, env) => a.abort now env e
  | (.ok count, env) =>
    (a.before (.visit action parameter count body)).goOn
      (env.note (.elementsDetermined count parameter action))

/-- Walks the body of a collection iterator in a frame for one more element, if elements remain. -/
def nextElement (now : SimTime) (env : Environment) (a : Activity) (action : Action)
    (parameter : String) (body : Behavior) : (remaining : Nat) → Progress
  | 0 => a.goOn env
  | remaining + 1 =>
    match a.stack.current with
    | .error fault => a.abort now env (.stackDiscipline fault)
    | .ok frame =>
      let (fresh, env) := env.newFrame
      match env.resolve frame (parameter ++ ".") (Frame.inside frame fresh.identity) with
      | (some e, _, env) => a.abort now env (.evaluation e)
      | (none, element, env) =>
        let next := (a.before (.visit action parameter remaining body)).before
          (.leave element.identity)
        ({ next with stack := a.stack.push element }.walking body).goOn env

/-! ## Variables and forks -/

/-- Binds usages in the result frame. -/
def setVariable (now : SimTime) (env : Environment) (a : Activity) (usages : List VariableUsage) :
    Progress :=
  match a.stack.current with
  | .error fault => a.abort now env (.stackDiscipline fault)
  | .ok frame =>
    let (failure, result, env) := env.bind usages frame a.result
    { a with result := result }.goOnUnless now env failure

/-- Forks processes and waits for the synchronous ones. -/
def fork (id : ProcessId) (env : Environment) (a : Activity) (action : Action)
    (asynchronous synchronous : List Behavior) : Progress :=
  let env := env.note (.behaviorsForked action asynchronous.length synchronous.length)
  .goes ⟨env.setBarrier id (Barrier.new synchronous.length), [],
    a.children id asynchronous synchronous, .proceed (a.before .join)⟩

/-- Goes on when nobody is missing at the barrier, with the failure that was reported first. -/
def joinForked (now : SimTime) (id : ProcessId) (env : Environment) (a : Activity) :
    Progress :=
  let barrier := env.barrier id
  if barrier.isOpen then
    match barrier.collect.1 with
    | some e => a.abort now (env.dropBarrier id) e
    | none => a.goOn (env.dropBarrier id)
  else .goes ⟨env.setBarrier id (barrier.await id), [], [], .block (a.before .join)⟩

/-! ## Steps -/

/-- Performs an action. -/
def perform (d : Deployment) (now : SimTime) (id : ProcessId) (env : Environment) (a : Activity)
    (action : Action) : Progress :=
  match action.kind with
  | .start => a.goOn env
  | .stop => a.goOn env
  | .internal demands => a.beginInternal d now env action demands
  | .externalCall call => a.beginCall d now id env action call
  | .branch transitions => a.branch now env action transitions
  | .loop iterations body => a.beginLoop now env action iterations body
  | .collectionIterator parameter body => a.beginIterator now env action parameter body
  | .setVariable usages => a.setVariable now env usages
  | .fork asynchronous synchronous => a.fork id env action asynchronous synchronous

/-- Walks on along a behavior.  At its end the stack must be as deep as on entry. -/
def walkOn (d : Deployment) (now : SimTime) (id : ProcessId) (env : Environment) (a : Activity)
    (behavior : Behavior) (depth : Nat) : List Action → Progress
  | [] =>
    if a.stack.depth = depth then a.goOn env
    else a.abort now env (.stackDiscipline (.unbalanced behavior.name a.stack.depth depth))
  | action :: rest =>
    ((a.before (.walk behavior depth rest)).before (.finish action)).perform d now id
      (env.note (.actionEntered action)) action

/-- Binds the inputs of a request in its root frame. -/
def acceptInputs (now : SimTime) (env : Environment) (a : Activity) (inputs : List VariableUsage) :
    Progress :=
  let (context, env) := env.newFrame
  let (root, env) := env.newFrame
  let (failure, root, env) := env.bind inputs context root
  { a with stack := a.stack.push root }.goOnUnless now env failure

/-- Enters a behavior with a result frame of its own. -/
def enterBehavior (env : Environment) (a : Activity) (behavior : Behavior) :
    Progress :=
  let (result, env) := env.newFrame
  ({ a with result := result }.walking behavior).goOn (env.note (.behaviorEntered behavior.name))

/-- Performs a task. -/
def performTask (d : Deployment) (now : SimTime) (id : ProcessId) (env : Environment) (a : Activity)
    (task : Task) : Progress :=
  match task with
  | .arrive time => .goes ⟨env, [], [], .hold (time.since now) a⟩
  | .accept inputs => a.acceptInputs now env inputs
  | .enterFork behavior =>
    (a.before (.invoke behavior)).goOn (env.note (.forkEntered a.name behavior.name))
  | .invoke behavior => a.enterBehavior env behavior
  | .walk behavior depth actions => a.walkOn d now id env behavior depth actions
  | .finish action => a.goOn (env.note (.actionFinished action))
  | .load action container demands => a.issueNext now id env action container demands
  | .serve demand => a.startService now env demand
  | .release demand started => a.completeDemand now id env demand started
  | .iterate action iteration remaining body => a.nextIteration env action iteration body remaining
  | .visit action parameter remaining body => a.nextElement now env action parameter body remaining
  | .leave element => a.leaveFrame now env element fun a => a.goOn env
  | .return_ site pushed result => a.finishCall d now id env site pushed result
  | .join => a.joinForked now id env

/-- One step of an activity: its next task, or its end. -/
def advance (d : Deployment) (now : SimTime) (id : ProcessId) (env : Environment) (a : Activity) :
    Progress :=
  match a.tasks with
  | [] => a.conclude now env
  | task :: rest => { a with tasks := rest }.performTask d now id env task

/-- The turn of an activity.  An end is reported in the turn in which it comes. -/
def turn (d : Deployment) (now : SimTime) (id : ProcessId) (env : Environment) (a : Activity) :
    Turn Environment Activity :=
  match a.advance d now id env with
  | .goes turn => turn
  | .ends env completion => a.report env completion

/-- What activities do on a deployment. -/
def program (d : Deployment) : Program Environment Activity where
  turn := turn d
  advanced time wakeups env := env.note (.clockAdvanced time wakeups)

end ServiceSim.Activity

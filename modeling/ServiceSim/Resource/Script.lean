import ServiceSim.Kernel.Barrier
import ServiceSim.Log
import ServiceSim.Resource.Journal

/-!
# Scripted processes

Processes that follow a fixed list of steps: they hold, spawn other scripts, demand resources, and
wait or arrive at a barrier.  They exercise the kernel, resources and barriers by themselves,
without a model.
-/

namespace ServiceSim

/-- A step of a script. -/
inductive ScriptStep where
  | hold (delay : Float)
  | spawn (label : String) (steps : List ScriptStep)
  | demand (container : ContainerId) (resource : String) (amount : Float)
  | await (label : String)
  | arrive (failure : Option InterpreterError)

/-- What a scripted process is in the middle of. -/
inductive ScriptStage where
  | between
  | held
  | queued (load : Load)
  | serving (load : Load) (started : SimTime)
  | awaiting (label : String)

/-- A process that follows a script. -/
structure Script where
  /-- Its name. -/
  name : String
  /-- What it is in the middle of. -/
  stage : ScriptStage
  /-- What it still has to do. -/
  steps : List ScriptStep

/-- Something that a script has done. -/
inductive ScriptEvent where
  | woke (process : String) (time : SimTime)
  | demand (event : DemandEvent)
  | arrived (time : SimTime) (remaining : Nat)
  | passed (label : String) (failure : Option InterpreterError) (time : SimTime) (remaining : Nat)

/-- What scripts share. -/
structure ScriptWorld where
  /-- The resources. -/
  resources : Resources
  /-- The barrier. -/
  barrier : Barrier InterpreterError
  /-- What has been logged, the latest first. -/
  log : Log
  /-- What has been done, the latest first. -/
  events : List ScriptEvent

namespace ScriptWorld

/-- Notes an event. -/
def note (event : ScriptEvent) (w : ScriptWorld) : ScriptWorld :=
  { w with events := event :: w.events }

/-- Logs an event. -/
def report (event : LogEvent) (w : ScriptWorld) : ScriptWorld := { w with log := event :: w.log }

/-- The events in order. -/
def history (w : ScriptWorld) : List ScriptEvent := w.events.reverse

end ScriptWorld

namespace Script

/-- A process at the start of a script. -/
def new (name : String) (steps : List ScriptStep) : Script := ⟨name, .between, steps⟩

/-- A turn that neither wakes nor spawns. -/
def goOn (w : ScriptWorld) (next : Next Script) : Turn ScriptWorld Script := ⟨w, [], [], next⟩

/-- The turn in which the service of a demand starts. -/
def serve (now : SimTime) (w : ScriptWorld) (s : Script) (load : Load) : Turn ScriptWorld Script :=
  let event := .serviceStarted now s.name load.container load.resource load.service
  goOn (w.report event) (.hold load.service { s with stage := .serving load now })

/-- The turn that passes the barrier. -/
def pass (now : SimTime) (w : ScriptWorld) (s : Script) (label : String) :
    Turn ScriptWorld Script :=
  let (failure, barrier) := w.barrier.collect
  let w := { w with barrier := barrier }
  goOn (w.note (.passed label failure now barrier.remaining))
    (.proceed { s with stage := .between })

/-- The turn of the next step. -/
def perform (now : SimTime) (id : ProcessId) (w : ScriptWorld) (s : Script) (step : ScriptStep) :
    Turn ScriptWorld Script :=
  match step with
  | .hold delay => goOn w (.hold delay { s with stage := .held })
  | .spawn label steps => ⟨w, [], [new (s.name ++ "/" ++ label) steps], .proceed s⟩
  | .demand container resource amount =>
    let w := w.note (.demand (.issued s.name container resource amount now))
    match w.resources.issue now id container resource amount with
    | .error e => goOn (w.note (.demand (.refused s.name resource now e))) (.proceed s)
    | .ok (load, granted, resources) =>
      let w := { w with resources := resources }
      if granted then serve now w s load else goOn w (.block { s with stage := .queued load })
  | .await label =>
    if w.barrier.isOpen then pass now w s label
    else goOn { w with barrier := w.barrier.await id } (.block { s with stage := .awaiting label })
  | .arrive failure =>
    let (barrier, woken) := w.barrier.arrive failure
    let w := { w with barrier := barrier }
    ⟨w.note (.arrived now barrier.remaining), woken, [], .proceed s⟩

/-- The turn of a scripted process. -/
def turn (now : SimTime) (id : ProcessId) (w : ScriptWorld) (s : Script) :
    Turn ScriptWorld Script :=
  match s.stage with
  | .held => goOn (w.note (.woke s.name now)) (.proceed { s with stage := .between })
  | .queued load => serve now w s load
  | .serving load started =>
    let (woken, resources) := w.resources.complete id load started
    let w := { w with resources := resources }
    ⟨w.note (.demand (.served s.name load.resource now)), woken.toList, [],
      .proceed { s with stage := .between }⟩
  | .awaiting label => pass now w s label
  | .between =>
    match s.steps with
    | [] => goOn w .finish
    | step :: rest => perform now id w { s with steps := rest } step

/-- What scripted processes do. -/
def program : Program ScriptWorld Script where
  turn := turn
  advanced time wakeups w := w.report (.clockAdvanced time wakeups)

end Script

/-- The kernel with the given resources and barrier, before any script. -/
def ScriptWorld.kernel (resources : Resources) (parties : Nat) : Kernel ScriptWorld Script :=
  Kernel.initial ⟨resources, Barrier.new parties, [], []⟩

end ServiceSim

import ServiceSim.Time

/-!
# The discrete-event kernel

The kernel runs processes on a simulated clock.  At every moment each process that has not finished
is in exactly one place: it runs, it is ready to run, it has been spawned and not been admitted yet,
it is parked until a time, or it is blocked until another process wakes it.

A process runs until it has to wait.  Processes are admitted and run in sweeps: when a sweep begins,
all spawned processes are put behind those that are ready; it ends when a process has finished, when
as many have run as were alive at its beginning, or when none is ready.  When no process can run,
the clock moves to the earliest time at which one is parked, and all that are due become ready in the
order of their times, and of parking where the times are equal.

`Kernel.step` is one step of this, so a whole run is its iteration.  What a process does when it
runs is given by a `Program`; the kernel knows nothing else about processes or about what they share.
-/

namespace ServiceSim

/-- The identity of a process: its place in the order of spawning. -/
abbrev ProcessId := Nat

/-! ## Programs -/

/-- How a process goes on after a turn. -/
inductive Next (Task : Type) where
  /-- It keeps running. -/
  | proceed (task : Task)
  /-- It lets time pass. -/
  | hold (delay : Float) (task : Task)
  /-- It waits to be woken. -/
  | block (task : Task)
  /-- It has finished. -/
  | finish

/-- What a process does in one turn. -/
structure Turn (World Task : Type) where
  /-- What the processes share, as the turn leaves it. -/
  world : World
  /-- The blocked processes that the turn wakes, in order. -/
  woken : List ProcessId
  /-- The processes that the turn spawns, in order. -/
  spawned : List Task
  /-- How the process goes on. -/
  next : Next Task

/-- What processes do. -/
structure Program (World Task : Type) where
  /-- The turn of a process at a time. -/
  turn : SimTime → ProcessId → World → Task → Turn World Task
  /-- Notes that the clock has moved to a time at which a number of processes is due. -/
  advanced : SimTime → Nat → World → World

/-! ## States -/

/-- A process that is parked until a time. -/
structure Wakeup (Task : Type) where
  /-- The time. -/
  due : SimTime
  /-- The place in the order of parking. -/
  order : Nat
  /-- The process. -/
  process : ProcessId
  /-- How it goes on. -/
  task : Task

/-- A state of the kernel. -/
structure Kernel (World Task : Type) where
  /-- The clock. -/
  now : SimTime
  /-- What the processes share. -/
  world : World
  /-- The number of processes spawned so far. -/
  spawned : Nat
  /-- The number of times that a process has been parked. -/
  parkings : Nat
  /-- The process that runs. -/
  running : Option (ProcessId × Task)
  /-- How many more processes may run in this sweep. -/
  budget : Nat
  /-- The processes that are ready, in the order in which they will run. -/
  ready : List (ProcessId × Task)
  /-- The processes that have been spawned and not been admitted. -/
  incoming : List (ProcessId × Task)
  /-- The processes that are parked, in the order in which they are due. -/
  parked : List (Wakeup Task)
  /-- The processes that wait to be woken. -/
  blocked : List (ProcessId × Task)

namespace Kernel

variable {World Task : Type}

/-- The kernel at the start, without processes. -/
def initial (world : World) : Kernel World Task :=
  ⟨SimTime.zero, world, 0, 0, none, 0, [], [], [], []⟩

/-- Changes what the processes share. -/
def mapWorld (f : World → World) (k : Kernel World Task) : Kernel World Task :=
  { k with world := f k.world }

/-- The number of processes that have been admitted and have not finished, while none runs. -/
def alive (k : Kernel World Task) : Nat := k.ready.length + k.parked.length + k.blocked.length

/-- Whether a process has been spawned and has not finished. -/
def has (k : Kernel World Task) (id : ProcessId) : Bool :=
  k.running.any (·.1 == id) || k.ready.any (·.1 == id) || k.incoming.any (·.1 == id) ||
    k.parked.any (·.process == id) || k.blocked.any (·.1 == id)

/-! ## Spawning, waking and parking -/

/-- Spawns a process. -/
def spawn (task : Task) (k : Kernel World Task) : Kernel World Task :=
  { k with spawned := k.spawned + 1, incoming := k.incoming ++ [(k.spawned, task)] }

/-- Spawns processes, in order. -/
def spawnAll (tasks : List Task) (k : Kernel World Task) : Kernel World Task :=
  tasks.foldl (fun k task => k.spawn task) k

/-- Wakes a process, if it is blocked: it becomes ready behind all others. -/
def wake (k : Kernel World Task) (id : ProcessId) : Kernel World Task :=
  match k.blocked.find? (·.1 == id) with
  | some process =>
    { k with
      ready := k.ready ++ [process]
      blocked := k.blocked.filter (·.1 != id) }
  | none => k

/-- Wakes processes, in order. -/
def wakeAll (ids : List ProcessId) (k : Kernel World Task) : Kernel World Task :=
  ids.foldl wake k

/-- Puts a wakeup behind those that are due no later. -/
def insertWakeup (w : Wakeup Task) : List (Wakeup Task) → List (Wakeup Task)
  | [] => [w]
  | v :: rest => if v.due ≤ w.due then v :: insertWakeup w rest else w :: v :: rest

/-- Parks a process until a time. -/
def park (id : ProcessId) (due : SimTime) (task : Task) (k : Kernel World Task) :
    Kernel World Task :=
  { k with
    parkings := k.parkings + 1
    parked := insertWakeup ⟨due, k.parkings, id, task⟩ k.parked }

/-! ## Steps -/

/-- Applies how a process goes on.  A hold that is over at once does not give up control. -/
def goOn (id : ProcessId) (next : Next Task) (k : Kernel World Task) : Kernel World Task :=
  match next with
  | .proceed task => { k with running := some (id, task) }
  | .hold delay task =>
    let due := k.now.after delay
    if due ≤ k.now then { k with running := some (id, task) }
    else { k.park id due task with running := none }
  | .block task => { k with running := none, blocked := k.blocked ++ [(id, task)] }
  | .finish => { k with running := none, budget := 0 }

/-- Applies a turn of the process that runs. -/
def applyTurn (id : ProcessId) (turn : Turn World Task) (k : Kernel World Task) :
    Kernel World Task :=
  (({ k with world := turn.world }.wakeAll turn.woken).spawnAll turn.spawned).goOn id turn.next

/-- Begins a sweep. -/
def beginSweep (k : Kernel World Task) : Kernel World Task :=
  let k := { k with ready := k.ready ++ k.incoming, incoming := [] }
  { k with budget := k.alive }

/-- Moves the clock to a time that is not before it, and makes ready all that is due then. -/
def advanceTo (program : Program World Task) (time : SimTime) (k : Kernel World Task) :
    Kernel World Task :=
  let now := k.now.later time
  let due := k.parked.takeWhile (·.due ≤ now)
  { k with
    now := now
    world := program.advanced now due.length k.world
    ready := k.ready ++ due.map fun w => (w.process, w.task)
    parked := k.parked.dropWhile (·.due ≤ now)
    budget := 0 }

/-- Whether a time lies beyond the stop time. -/
def beyond (time : SimTime) : Option SimTime → Bool
  | none => false
  | some stop => stop < time

/-- What one step leads to. -/
inductive Step (World Task : Type) where
  | goes (k : Kernel World Task)
  | ends (k : Kernel World Task)

/-- A step when no process can run: the clock moves on, or the run ends.  The clock of a run that
ends at a stop time shows that time, unless it is past it. -/
def advance (program : Program World Task) (stop : Option SimTime) (k : Kernel World Task) :
    Step World Task :=
  match k.parked with
  | [] => .ends k
  | first :: _ =>
    match stop with
    | none => .goes (k.advanceTo program first.due)
    | some s =>
      if s < first.due then .ends { k with now := k.now.later s }
      else .goes (k.advanceTo program first.due)

/-- One step of a run. -/
def step (program : Program World Task) (stop : Option SimTime) (k : Kernel World Task) :
    Step World Task :=
  match k.running with
  | some (id, task) => .goes (k.applyTurn id (program.turn k.now id k.world task))
  | none =>
    match k.ready, k.budget with
    | process :: rest, budget + 1 =>
      .goes { k with running := some process, ready := rest, budget := budget }
    | [], _ => if k.incoming.isEmpty then k.advance program stop else .goes k.beginSweep
    | _ :: _, 0 => .goes k.beginSweep

/-- A whole run, if it takes at most `fuel` steps: until no process is left that could run, or the
next one is due after the stop time. -/
def run (program : Program World Task) (stop : Option SimTime) :
    (fuel : Nat) → Kernel World Task → Option (Kernel World Task)
  | 0, _ => none
  | fuel + 1, k =>
    match k.step program stop with
    | .ends k => some k
    | .goes k => run program stop fuel k

end Kernel

end ServiceSim

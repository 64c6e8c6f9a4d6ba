import ServiceSim.Model.System
import ServiceSim.NameMap
import ServiceSim.Resource.Error
import ServiceSim.Resource.Servers

/-!
# Simulated resources

The processing resources of all containers of a model.  A demand takes as long as its amount divided
by the rate of the resource.  A resource that serves in order needs one of its servers for that
time; a pure delay serves every demand at once.

A demand goes through three moments: it is issued, which may have to wait for a server, its service
starts, and it is completed.  A demand that is refused when it is issued changes nothing.
-/

namespace ServiceSim

/-- What a resource has done. -/
structure ResourceStats where
  /-- The container. -/
  container : ContainerId
  /-- The type of the resource. -/
  resource : String
  /-- The number of demands completed. -/
  served : Nat
  /-- The sum of their amounts. -/
  totalDemand : Float
  /-- The seconds spent serving them. -/
  busyTime : Float
  /-- The seconds that they waited. -/
  waitingTime : Float

/-- A resource while it is simulated. -/
structure ActiveResource where
  /-- The work done in a second. -/
  rate : Float
  /-- Its servers, unless it is a pure delay. -/
  servers : Option Servers
  /-- What it has done. -/
  stats : ResourceStats

/-- The resources of every container. -/
structure Resources where
  /-- The resources by container and type. -/
  containers : NameMap (NameMap ActiveResource)

namespace ActiveResource

/-- A resource that has done nothing, if it can be simulated. -/
def ofSpec (container : ContainerId) (spec : ProcessingResource) :
    Except ResourceError ActiveResource :=
  let stats : ResourceStats := ⟨container, spec.resource, 0, 0, 0, 0⟩
  if !(0 < spec.processingRate && Binary64.isFinite spec.processingRate) then
    .error (.misconfigured container spec.resource (.rate spec.processingRate))
  else match spec.scheduling with
    | .fcfs =>
      if spec.servers = 0 then .error (.misconfigured container spec.resource .noServer)
      else .ok ⟨spec.processingRate, some (Servers.idle spec.servers), stats⟩
    | .delay => .ok ⟨spec.processingRate, none, stats⟩

/-- The resource after one more demand has been completed. -/
def record (r : ActiveResource) (amount busy waiting : Float) : ActiveResource :=
  { r with
    stats :=
      { r.stats with
        served := r.stats.served + 1
        totalDemand := r.stats.totalDemand + amount
        busyTime := r.stats.busyTime + busy
        waitingTime := r.stats.waitingTime + waiting } }

end ActiveResource

/-- A demand that has been accepted. -/
structure Load where
  /-- The container. -/
  container : ContainerId
  /-- The type of the resource. -/
  resource : String
  /-- The amount of work. -/
  amount : Float
  /-- The seconds that it takes. -/
  service : Float
  /-- When it was issued. -/
  arrived : SimTime

namespace Resources

/-- The resources of one container. -/
def ofContainer (c : ResourceContainer) : Except ResourceError (NameMap ActiveResource) :=
  c.resources.foldlM (fun m spec => do
    return NameMap.insert spec.resource (← ActiveResource.ofSpec c.id spec) m) []

/-- The resources of containers. -/
def ofContainers (containers : List ResourceContainer) : Except ResourceError Resources := do
  let m ← containers.foldlM (fun m c => do
    return NameMap.insert c.id (← ofContainer c) m) []
  return ⟨m⟩

/-- Looks a resource up. -/
def find (rs : Resources) (container : ContainerId) (resource : String) :
    Except ResourceError ActiveResource :=
  match rs.containers.lookup container with
  | none => .error (.unknownContainer container)
  | some resources =>
    match resources.lookup resource with
    | none => .error (.unknownResource container resource)
    | some r => .ok r

/-- Replaces a resource. -/
def update (rs : Resources) (container : ContainerId) (resource : String) (r : ActiveResource) :
    Resources :=
  match rs.containers.lookup container with
  | none => rs
  | some resources =>
    ⟨NameMap.insert container (NameMap.insert resource r resources) rs.containers⟩

/-- Issues a demand.  The result tells whether its service can start at once. -/
def issue (rs : Resources) (now : SimTime) (id : ProcessId) (container : ContainerId)
    (resource : String) (amount : Float) : Except ResourceError (Load × Bool × Resources) :=
  if !(0 ≤ amount && Binary64.isFinite amount) then .error (.invalidDemand resource amount)
  else do
    let r ← rs.find container resource
    let load : Load := ⟨container, resource, amount, amount / r.rate, now⟩
    match r.servers with
    | none => return (load, true, rs)
    | some servers =>
      let (granted, servers) := servers.acquire id
      return (load, granted, rs.update container resource { r with servers := some servers })

/-- Completes a demand whose service started at a time.  The process that receives the server is to
be woken. -/
def complete (rs : Resources) (id : ProcessId) (load : Load) (started : SimTime) :
    Option ProcessId × Resources :=
  match rs.find load.container load.resource with
  | .error _ => (none, rs)
  | .ok r =>
    let r := r.record load.amount load.service (started.since load.arrived)
    match r.servers with
    | none => (none, rs.update load.container load.resource r)
    | some servers =>
      let (woken, servers) := servers.release id
      (woken, rs.update load.container load.resource { r with servers := some servers })

/-- What the resources have done, in the order of containers and types. -/
def statistics (rs : Resources) : List ResourceStats :=
  rs.containers.flatMap fun (_, resources) => resources.map fun (_, r) => r.stats

end Resources

end ServiceSim

import ServiceSim.Model.Behavior

/-!
# Systems

A system model has components that provide services, assembly contexts that deploy components,
connectors that wire the roles a context requires, containers with processing resources, the
allocation of contexts to containers, and the actions to be monitored.

A `Deployment` is a model whose cross references have been checked.  Where a model declares the same
identifier twice, the later declaration counts.
-/

namespace ServiceSim

/-- A service and the behavior that implements it. -/
structure ServiceEffect where
  /-- The name of the service. -/
  service : String
  /-- What calling it does. -/
  behavior : Behavior

/-- A type of component. -/
structure Component where
  /-- The identifier. -/
  id : ComponentId
  /-- The name shown. -/
  name : String
  /-- The services it provides. -/
  services : List ServiceEffect

/-- A deployed component. -/
structure AssemblyContext where
  /-- The identifier. -/
  id : ContextId
  /-- The name shown. -/
  name : String
  /-- The component deployed. -/
  component : ComponentId

/-- The wiring of a required role. -/
structure AssemblyConnector where
  /-- The context that requires the role. -/
  requiring : ContextId
  /-- The role. -/
  role : String
  /-- The context that provides it. -/
  providing : ContextId

/-- How a resource serves its demands. -/
inductive SchedulingPolicy where
  /-- First come, first served, by a number of servers. -/
  | fcfs
  /-- Every demand is served at once. -/
  | delay
deriving DecidableEq, Repr

/-- A processing resource. -/
structure ProcessingResource where
  /-- The type that demands name. -/
  resource : String
  /-- The work done in a second. -/
  processingRate : Float
  /-- The number of servers. -/
  servers : Nat
  /-- How demands are served. -/
  scheduling : SchedulingPolicy

/-- A simulated server with its resources. -/
structure ResourceContainer where
  /-- The identifier. -/
  id : ContainerId
  /-- The name shown. -/
  name : String
  /-- The resources. -/
  resources : List ProcessingResource

/-- The allocation of a context. -/
structure AllocationContext where
  /-- The context. -/
  assemblyContext : ContextId
  /-- The container that hosts it. -/
  container : ContainerId

/-- What is measured of an action. -/
inductive MetricKind where
  | responseTime
deriving DecidableEq, Repr

/-- An action that is monitored. -/
structure MonitoringSpec where
  /-- The action. -/
  action : ActionId
  /-- What is measured. -/
  metric : MetricKind

/-- A system as it is described. -/
structure SystemModel where
  /-- The name shown. -/
  name : String
  /-- The components. -/
  components : List Component
  /-- The deployed components. -/
  assemblyContexts : List AssemblyContext
  /-- The wiring of roles. -/
  connectors : List AssemblyConnector
  /-- The simulated servers. -/
  containers : List ResourceContainer
  /-- The allocation of contexts. -/
  allocation : List AllocationContext
  /-- The monitored actions. -/
  monitoring : List MonitoringSpec

/-! ## Cross references -/

namespace SystemModel

/-- Whether a component is declared. -/
def hasComponent (m : SystemModel) (id : ComponentId) : Bool := m.components.any (·.id == id)

/-- Whether an assembly context is declared. -/
def hasContext (m : SystemModel) (id : ContextId) : Bool := m.assemblyContexts.any (·.id == id)

/-- Whether a container is declared. -/
def hasContainer (m : SystemModel) (id : ContainerId) : Bool := m.containers.any (·.id == id)

/-- Requires a declared context. -/
def requireContext (m : SystemModel) (id : ContextId) : Except ModelError Unit :=
  if m.hasContext id then .ok () else .error (.unknownAssemblyContext id)

/-- Checks that every reference names something declared. -/
def validate (m : SystemModel) : Except ModelError Unit := do
  m.assemblyContexts.forM fun context =>
    if m.hasComponent context.component then .ok ()
    else .error (.unknownComponent context.component)
  m.connectors.forM fun connector => do
    m.requireContext connector.requiring
    m.requireContext connector.providing
  m.allocation.forM fun entry => do
    m.requireContext entry.assemblyContext
    if m.hasContainer entry.container then .ok () else .error (.unknownContainer entry.container)

end SystemModel

/-- A model whose references have been checked. -/
structure Deployment where
  /-- The model. -/
  model : SystemModel
  /-- Its references name what is declared. -/
  checked : model.validate = .ok ()

namespace Deployment

/-- Checks a model. -/
def ofModel (m : SystemModel) : Except ModelError Deployment :=
  match h : m.validate with
  | .ok () => .ok ⟨m, h⟩
  | .error e => .error e

/-! ## Look-ups -/

/-- The last element of a list with a property: of several declarations the latest counts. -/
def latest? {α : Type} (p : α → Bool) (items : List α) : Option α := items.reverse.find? p

/-- The assembly context with an identifier. -/
def context (d : Deployment) (id : ContextId) : Except ModelError AssemblyContext :=
  match latest? (·.id == id) d.model.assemblyContexts with
  | some found => .ok found
  | none => .error (.unknownAssemblyContext id)

/-- The component with an identifier. -/
def component (d : Deployment) (id : ComponentId) : Except ModelError Component :=
  match latest? (·.id == id) d.model.components with
  | some found => .ok found
  | none => .error (.unknownComponent id)

/-- The container that hosts a context. -/
def containerOf (d : Deployment) (id : ContextId) : Except ModelError ContainerId :=
  match latest? (·.assemblyContext == id) d.model.allocation with
  | some entry => .ok entry.container
  | none => .error (.unallocated id)

/-- The behavior of a service of the component that a context deploys. -/
def providedService (d : Deployment) (id : ContextId) (service : String) :
    Except ModelError Behavior := do
  let context ← d.context id
  let component ← d.component context.component
  match component.services.find? (·.service == service) with
  | some effect => return effect.behavior
  | none => .error (.unknownService component.id service)

/-- The callee of a call: the context that provides the role, and the behavior of the service. -/
def resolveCall (d : Deployment) (caller : ContextId) (role service : String) :
    Except ModelError (ContextId × Behavior) :=
  match latest? (fun c => c.requiring == caller && c.role == role) d.model.connectors with
  | some connector => do
    let behavior ← d.providedService connector.providing service
    return (connector.providing, behavior)
  | none => .error (.unboundRole caller role)

/-- The monitoring of an action, if there is any. -/
def monitoring? (d : Deployment) (action : ActionId) (metric : MetricKind) :
    Option MonitoringSpec :=
  latest? (fun m => m.action == action && m.metric == metric) d.model.monitoring

end Deployment

end ServiceSim

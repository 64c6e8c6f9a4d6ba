import ServiceSim.Json.Basic
import ServiceSim.Model.System

/-!
# Writing models as JSON

The documents of the parts of a system model, with all members written out.  An action is one flat
object that holds the members of its kind beside its own.
-/

namespace ServiceSim

/-- A usage as a document. -/
def VariableUsage.toJson (u : VariableUsage) : Json :=
  .object
    [("reference", .string u.reference),
     ("characterisations", Json.ofList (fun c : Characterisation =>
        .object [("kind", .string c.kind.name), ("specification", .string c.specification.source)])
        u.characterisations)]

/-- A demand as a document. -/
def ResourceDemand.toJson (d : ResourceDemand) : Json :=
  .object [("resource", .string d.resource), ("specification", .string d.specification.source)]

/-- A condition as a document. -/
def TransitionCondition.toJson : TransitionCondition → Json
  | guard s => .object [("guard", .string s.source)]
  | probability p => .object [("probability", .double p)]

mutual

/-- The members of a kind of action. -/
def ActionKind.members : ActionKind → List (String × Json)
  | .start => [("type", .string "start")]
  | .stop => [("type", .string "stop")]
  | .internal demands =>
    [("type", .string "internal"), ("demands", Json.ofList ResourceDemand.toJson demands)]
  | .externalCall call =>
    [("type", .string "external_call"), ("role", .string call.role),
     ("service", .string call.service), ("inputs", Json.ofList VariableUsage.toJson call.inputs),
     ("returns", Json.ofList VariableUsage.toJson call.returns)]
  | .branch transitions =>
    [("type", .string "branch"), ("transitions", .array (transitionDocuments transitions))]
  | .loop iterations body =>
    [("type", .string "loop"), ("iterations", .string iterations.source), ("body", body.toJson)]
  | .collectionIterator parameter body =>
    [("type", .string "collection_iterator"), ("parameter", .string parameter),
     ("body", body.toJson)]
  | .setVariable usages =>
    [("type", .string "set_variable"), ("usages", Json.ofList VariableUsage.toJson usages)]
  | .fork asynchronous synchronous =>
    [("type", .string "fork"), ("asynchronous", .array (behaviorDocuments asynchronous)),
     ("synchronous", .array (behaviorDocuments synchronous))]

/-- An action as a document. -/
def Action.toJson : Action → Json
  | ⟨id, name, successor, kind⟩ =>
    .object
      ([("id", .string id), ("name", .string name),
        ("successor", Json.ofOption .string successor)] ++ kind.members)

/-- A transition as a document. -/
def BranchTransition.toJson : BranchTransition → Json
  | ⟨condition, behavior⟩ =>
    .object [("condition", condition.toJson), ("behavior", behavior.toJson)]

/-- A behavior as a document. -/
def Behavior.toJson : Behavior → Json
  | ⟨name, actions⟩ =>
    .object [("name", .string name), ("actions", .array (actionDocuments actions))]

/-- Actions as documents. -/
def actionDocuments : List Action → List Json
  | [] => []
  | a :: rest => a.toJson :: actionDocuments rest

/-- Transitions as documents. -/
def transitionDocuments : List BranchTransition → List Json
  | [] => []
  | t :: rest => t.toJson :: transitionDocuments rest

/-- Behaviors as documents. -/
def behaviorDocuments : List Behavior → List Json
  | [] => []
  | b :: rest => b.toJson :: behaviorDocuments rest

end

/-- A component as a document. -/
def Component.toJson (c : Component) : Json :=
  .object
    [("id", .string c.id), ("name", .string c.name),
     ("services", Json.ofList (fun e : ServiceEffect =>
        .object [("service", .string e.service), ("behavior", e.behavior.toJson)]) c.services)]

/-- The name of a scheduling policy in files. -/
def SchedulingPolicy.name : SchedulingPolicy → String
  | fcfs => "fcfs"
  | delay => "delay"

/-- A processing resource as a document. -/
def ProcessingResource.toJson (r : ProcessingResource) : Json :=
  .object
    [("resource", .string r.resource), ("processing_rate", .double r.processingRate),
     ("servers", .integer r.servers), ("scheduling", .string r.scheduling.name)]

/-- A container as a document. -/
def ResourceContainer.toJson (c : ResourceContainer) : Json :=
  .object
    [("id", .string c.id), ("name", .string c.name),
     ("resources", Json.ofList ProcessingResource.toJson c.resources)]

/-- The name of a metric in files. -/
def MetricKind.name : MetricKind → String
  | responseTime => "response_time"

/-- A system model as a document. -/
def SystemModel.toJson (m : SystemModel) : Json :=
  .object
    [("name", .string m.name),
     ("components", Json.ofList Component.toJson m.components),
     ("assembly_contexts", Json.ofList (fun c : AssemblyContext =>
        .object
          [("id", .string c.id), ("name", .string c.name), ("component", .string c.component)])
        m.assemblyContexts),
     ("connectors", Json.ofList (fun c : AssemblyConnector =>
        .object [("requiring", .string c.requiring), ("role", .string c.role),
          ("providing", .string c.providing)]) m.connectors),
     ("containers", Json.ofList ResourceContainer.toJson m.containers),
     ("allocation", Json.ofList (fun a : AllocationContext =>
        .object [("assembly_context", .string a.assemblyContext),
          ("container", .string a.container)]) m.allocation),
     ("monitoring", Json.ofList (fun s : MonitoringSpec =>
        .object [("action", .string s.action), ("metric", .string s.metric.name)]) m.monitoring)]

end ServiceSim

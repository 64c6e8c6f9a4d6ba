import ServiceSim.Json.Decoder
import ServiceSim.Model.System

/-!
# Reading models from JSON

The decoders of the parts of a system model.  Names are optional and default to the empty text, and
so are the lists of a model.  A specification that does not parse and a behavior that is no chain
are refused for that reason; a behavior is checked once all of it has been read, so behaviors inside
it are checked before.

An action has members of its own and those of its kind, which are known once all of it has been
read; so they are kept until then.

Behaviors hold behaviors, so their decoder takes the depth to which it reads them, which is that of
the document.
-/

namespace ServiceSim.Decode

open Json (Access Decoder DecodeError Reading Record)
open Json.Decode (text flag double natural list optional alternative)

/-! ## Specifications and usages -/

/-- A specification, as its text. -/
def specification : Decoder Specification := fun access r => do
  match Specification.parse (← text access r) with
  | .ok s => return s
  | .error e => .error (.rejected e.message)

/-- A property of a variable. -/
def characterisationKind : Decoder CharacterisationKind :=
  alternative [] (CharacterisationKind.all.map fun kind => (kind.name, kind))

/-- A characterisation. -/
def characterisation : Decoder Characterisation :=
  (((Record.required "kind" characterisationKind).and
    (Record.required "specification" specification)).map
      fun (kind, s) => ⟨kind, s⟩).decoder

/-- A usage. -/
def variableUsage : Decoder VariableUsage :=
  (((Record.required "reference" text).and
    (Record.required "characterisations" (list characterisation))).map
      fun (reference, cs) => ⟨reference, cs⟩).decoder

/-! ## Actions -/

/-- A demand. -/
def resourceDemand : Decoder ResourceDemand :=
  (((Record.required "resource" text).and (Record.required "specification" specification)).map
    fun (resource, s) => ⟨resource, s⟩).decoder

/-- The members of an external call. -/
def externalCall : Record ExternalCall :=
  ((Record.required "role" text).and
    ((Record.required "service" text).and
      ((Record.withDefault "inputs" (list variableUsage) []).and
        (Record.withDefault "returns" (list variableUsage) [])))).map
          fun (role, service, inputs, returns) => ⟨role, service, inputs, returns⟩

/-- The condition of a transition. -/
def transitionCondition : Decoder TransitionCondition :=
  alternative
    [("guard", fun access r => (specification access r).map .guard),
     ("probability", fun access r => (double access r).map .probability)]
    []

/-- A transition, given how behaviors are decoded. -/
def branchTransition (behavior : Decoder Behavior) : Decoder BranchTransition :=
  (((Record.required "condition" transitionCondition).and
    (Record.required "behavior" behavior)).map
      fun (condition, b) => ⟨condition, b⟩).decoder

/-- The members of each kind of action, under its name in files.  The two that hold nothing have no
members. -/
def kinds (behavior : Decoder Behavior) : List (String × Option (Record ActionKind)) :=
  [("start", none),
   ("stop", none),
   ("internal", some ((Record.required "demands" (list resourceDemand)).map .internal)),
   ("external_call", some (externalCall.map .externalCall)),
   ("branch",
      some ((Record.required "transitions" (list (branchTransition behavior))).map .branch)),
   ("loop", some (((Record.required "iterations" specification).and
      (Record.required "body" behavior)).map fun (iterations, body) => .loop iterations body)),
   ("collection_iterator", some (((Record.required "parameter" text).and
      (Record.required "body" behavior)).map
        fun (parameter, body) => .collectionIterator parameter body)),
   ("set_variable", some ((Record.required "usages" (list variableUsage)).map .setVariable)),
   ("fork", some (((Record.withDefault "asynchronous" (list behavior) []).and
      (Record.withDefault "synchronous" (list behavior) [])).map
        fun (asynchronous, synchronous) => .fork asynchronous synchronous))]

/-- The kind of action of a name that holds nothing. -/
def bareKind (name : String) : ActionKind := if name = "start" then .start else .stop

/-- The member that names the kind of an action; it must be there once. -/
def kindMember (members : List (Option String × Reading)) : Except DecodeError Reading :=
  match members.filter (·.1 == some "type") with
  | [(_, tag)] => .ok tag
  | _ => .error .shape

/-- The name of the kind of an action.  Inside an action its place among the kinds may stand for
it. -/
def kindName : Decoder String
  | .kept, .integer (.ofNat n) =>
    match (kinds fun _ _ => .error .shape)[n]? with
    | some (name, _) => .ok name
    | none => .error .shape
  | access, r => text access r

/-- A kind of action, given by the members of an object that have been kept. -/
def actionKindOfMembers (behavior : Decoder Behavior) (access : Access)
    (members : List (Option String × Reading)) : Except DecodeError ActionKind := do
  let name ← kindName access (← kindMember members)
  match (kinds behavior).lookup name with
  | none => .error .shape
  | some none => return bareKind name
  | some (some record) => record.ofMembers .kept (members.filter (·.1 != some "type"))

/-- A kind of action, given by the elements of an array that have been kept, of which its name is
the first. -/
def actionKindOfItems (behavior : Decoder Behavior) (access : Access) :
    List Reading → Except DecodeError ActionKind
  | [] => .error .shape
  | tag :: items => do
    let name ← kindName access tag
    match (kinds behavior).lookup name with
    | none => .error .shape
    | some none => if items.isEmpty then return bareKind name else .error .shape
    | some (some record) => record.ofItems .kept items

/-- A kind of action on its own. -/
def actionKind (behavior : Decoder Behavior) : Decoder ActionKind
  | access, .object members => actionKindOfMembers behavior access members
  | access, .array items => actionKindOfItems behavior access items
  | _, r => .error r.mismatch

/-- The members of an action besides those of its kind. -/
def actionMembers : Record (ActionId × String × Option ActionId) :=
  (Record.required "id" text).and
    ((Record.withDefault "name" text "").and
      (Record.withDefault "successor" (optional text) none))

/-- An action: one object with its own members and those of its kind, which is decoded last. -/
def action (behavior : Decoder Behavior) : Decoder Action
  | access, .object members => do
    let ((id, name, successor), others) ← actionMembers.ofMembersKeeping access members
    let kind ← actionKindOfMembers behavior .kept others
    return ⟨id, name, successor, kind⟩
  | _, r => .error r.mismatch

/-! ## Behaviors -/

/-- A behavior, given how behaviors inside it are decoded. -/
def behaviorWith (inner : Decoder Behavior) : Decoder Behavior :=
  (((Record.withDefault "name" text "").and
    (Record.required "actions" (list (action inner)))).check
      fun (name, actions) =>
        match Behavior.ofActions name actions with
        | .ok b => .ok b
        | .error e => .error (.rejected e.message)).decoder

/-- A behavior that holds others less than `depth` deep. -/
def behaviorWithin : (depth : Nat) → Decoder Behavior
  | 0 => fun _ r => .error r.mismatch
  | depth + 1 => behaviorWith (behaviorWithin depth)

/-- A behavior.  It is an object of its document, so behaviors nest no deeper than the document. -/
def behavior : Decoder Behavior := fun access r => behaviorWithin r.depth access r

/-! ## Systems -/

/-- A service. -/
def serviceEffect : Decoder ServiceEffect :=
  (((Record.required "service" text).and (Record.required "behavior" behavior)).map
    fun (service, b) => ⟨service, b⟩).decoder

/-- A component. -/
def component : Decoder Component :=
  (((Record.required "id" text).and ((Record.withDefault "name" text "").and
    (Record.required "services" (list serviceEffect)))).map
      fun (id, name, services) => ⟨id, name, services⟩).decoder

/-- An assembly context. -/
def assemblyContext : Decoder AssemblyContext :=
  (((Record.required "id" text).and ((Record.withDefault "name" text "").and
    (Record.required "component" text))).map
      fun (id, name, component) => ⟨id, name, component⟩).decoder

/-- A connector. -/
def assemblyConnector : Decoder AssemblyConnector :=
  (((Record.required "requiring" text).and ((Record.required "role" text).and
    (Record.required "providing" text))).map
      fun (requiring, role, providing) => ⟨requiring, role, providing⟩).decoder

/-- A scheduling policy. -/
def schedulingPolicy : Decoder SchedulingPolicy :=
  alternative [] [("fcfs", .fcfs), ("delay", .delay)]

/-- A processing resource; it has one server and serves in order unless it says otherwise. -/
def processingResource : Decoder ProcessingResource :=
  (((Record.required "resource" text).and ((Record.required "processing_rate" double).and
    ((Record.withDefault "servers" natural 1).and
      (Record.withDefault "scheduling" schedulingPolicy .fcfs)))).map
        fun (resource, rate, servers, scheduling) =>
          ⟨resource, rate, servers, scheduling⟩).decoder

/-- A container. -/
def resourceContainer : Decoder ResourceContainer :=
  (((Record.required "id" text).and ((Record.withDefault "name" text "").and
    (Record.required "resources" (list processingResource)))).map
      fun (id, name, resources) => ⟨id, name, resources⟩).decoder

/-- An allocation. -/
def allocationContext : Decoder AllocationContext :=
  (((Record.required "assembly_context" text).and (Record.required "container" text)).map
    fun (context, container) => ⟨context, container⟩).decoder

/-- A metric. -/
def metricKind : Decoder MetricKind := alternative [] [("response_time", .responseTime)]

/-- A monitored action. -/
def monitoringSpec : Decoder MonitoringSpec :=
  (((Record.required "action" text).and (Record.required "metric" metricKind)).map
    fun (action, metric) => ⟨action, metric⟩).decoder

/-- A system model. -/
def systemModel : Decoder SystemModel :=
  (((Record.withDefault "name" text "").and
    ((Record.withDefault "components" (list component) []).and
      ((Record.withDefault "assembly_contexts" (list assemblyContext) []).and
        ((Record.withDefault "connectors" (list assemblyConnector) []).and
          ((Record.withDefault "containers" (list resourceContainer) []).and
            ((Record.withDefault "allocation" (list allocationContext) []).and
              (Record.withDefault "monitoring" (list monitoringSpec) []))))))).map
    fun (name, components, contexts, connectors, containers, allocation, monitoring) =>
      ⟨name, components, contexts, connectors, containers, allocation, monitoring⟩).decoder

end ServiceSim.Decode

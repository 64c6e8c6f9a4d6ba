import ServiceSim.Proofs.Evaluation.Determinism
import ServiceSim.Proofs.Interpreter.Environment

/-!
# Call sites

A call site of a deployment is an external call that occurs, at any depth, in the behavior of a
service that some assembly context provides.  Behaviors nest: branches, iterations and forks have
bodies, and `Behavior.IsWithin` follows them.

What a process still has to do only leads into behaviors of the contexts it works in
(`Activity.IsPlaced`), since a call changes to the context that provides the behavior called, and a
return changes back.  So wherever a process calls, it calls from a call site of the deployment
(`callee_spec`).
-/

namespace ServiceSim

/-! ## Behaviors within behaviors -/

/-- The behaviors that a kind of action holds. -/
def ActionKind.bodies : ActionKind → List Behavior
  | .branch transitions => transitions.map BranchTransition.behavior
  | .loop _ body => [body]
  | .collectionIterator _ body => [body]
  | .fork asynchronous synchronous => asynchronous ++ synchronous
  | _ => []

/-- A behavior is within another one, at any depth. -/
inductive Behavior.IsWithin (root : Behavior) : Behavior → Prop
  | self : IsWithin root root
  | body {b inner : Behavior} {action : Action} : IsWithin root b → action ∈ b.actions →
      inner ∈ action.kind.bodies → IsWithin root inner

namespace Deployment

/-- A behavior belongs to a service that a context provides, at any depth. -/
def Hosts (d : Deployment) (context : ContextId) (b : Behavior) : Prop :=
  ∃ service root, d.providedService context service = .ok root ∧ root.IsWithin b

/-- **The call sites of a deployment.** -/
structure IsCallSite (d : Deployment) (s : CallSite) : Prop where
  caller : d.context s.caller.id = .ok s.caller
  call : s.action.kind = .externalCall s.call
  occurs : ∃ b, d.Hosts s.caller.id b ∧ s.action ∈ b.actions

variable {d : Deployment}

lemma Hosts.body {context : ContextId} {b inner : Behavior} {action : Action}
    (h : d.Hosts context b) (hmem : action ∈ b.actions) (hinner : inner ∈ action.kind.bodies) :
    d.Hosts context inner := by
  obtain ⟨service, root, hprovided, hwithin⟩ := h
  exact ⟨service, root, hprovided, hwithin.body hmem hinner⟩

lemma Hosts.provided {context : ContextId} {service : String} {b : Behavior}
    (h : d.providedService context service = .ok b) : d.Hosts context b :=
  ⟨service, b, h, .self⟩

/-- Where no action holds a behavior, all that is hosted is a service of a component. -/
lemma Hosts.mem_services (flat : ∀ component ∈ d.model.components, ∀ effect ∈ component.services,
    ∀ action ∈ effect.behavior.actions, action.kind.bodies.isEmpty = true)
    {context : ContextId} {b : Behavior} (h : d.Hosts context b) :
    ∃ component ∈ d.model.components, ∃ effect ∈ component.services, effect.behavior = b := by
  obtain ⟨service, root, hprovided, hwithin⟩ := h
  induction hwithin with
  | self =>
    obtain ⟨component, hcomponent, effect, heffect, -, hbehavior⟩ := providedService_mem hprovided
    exact ⟨component, hcomponent, effect, heffect, hbehavior⟩
  | body _ hmem hinner ih =>
    obtain ⟨component, hcomponent, effect, heffect, rfl⟩ := ih
    rw [List.isEmpty_iff.mp (flat component hcomponent effect heffect _ hmem)] at hinner
    cases hinner

end Deployment

namespace Activity

/-- The current context, if there is one, hosts a behavior. -/
def Hosted (d : Deployment) (contexts : List ContextId) (b : Behavior) : Prop :=
  ∀ context ∈ contexts.head?, d.Hosts context b

/-- The behaviors that the tasks lead into are hosted by the contexts in which they are done. -/
def Placed (d : Deployment) : List Task → List ContextId → Prop
  | [], _ => True
  | .enterFork b :: rest, contexts => Hosted d contexts b ∧ Placed d rest contexts
  | .invoke b :: rest, contexts => Hosted d contexts b ∧ Placed d rest contexts
  | .walk b _ actions :: rest, contexts =>
    Hosted d contexts b ∧ actions ⊆ b.actions ∧ Placed d rest contexts
  | .iterate _ _ _ b :: rest, contexts => Hosted d contexts b ∧ Placed d rest contexts
  | .visit _ _ _ b :: rest, contexts => Hosted d contexts b ∧ Placed d rest contexts
  | .return_ _ _ _ :: rest, contexts => Placed d rest contexts.tail
  | _ :: rest, contexts => Placed d rest contexts

/-- What an activity leads into is hosted by its contexts. -/
def IsPlaced (d : Deployment) (a : Activity) : Prop := Placed d a.tasks a.contexts

variable {d : Deployment} {a : Activity}

lemma Hosted.body {contexts : List ContextId} {b inner : Behavior} {action : Action}
    (h : Hosted d contexts b) (hmem : action ∈ b.actions) (hinner : inner ∈ action.kind.bodies) :
    Hosted d contexts inner :=
  fun context hcontext => (h context hcontext).body hmem hinner

/-- An activity that walks along a behavior of its context. -/
lemma IsPlaced.walking (h : a.IsPlaced d) {b : Behavior} (hosted : Hosted d a.contexts b) :
    (a.walking b).IsPlaced d :=
  ⟨hosted, fun _ hmem => Behavior.mem_of_mem_chain hmem, h⟩

/-- The activity of a request calls from the context at which it enters. -/
lemma ofRequest_placed {entry : ContextId} {service : String}
    {behavior : Behavior} (hprovided : d.providedService entry service = .ok behavior)
    (number : Nat) (arrival : SimTime) (inputs : List VariableUsage) :
    (ofRequest number entry arrival inputs behavior).IsPlaced d := by
  refine ⟨fun context hcontext => ?_, trivial⟩
  exact Option.mem_some.mp hcontext ▸ Deployment.Hosts.provided hprovided

/-- A call that reaches a behavior is resolved from the current context. -/
lemma callee_ok {action : Action} {call : ExternalCall} {site : CallSite} {context : ContextId}
    {reached : Behavior} (h : a.callee d action call = .ok (site, context, reached)) :
    ∃ caller outer, a.contexts = caller.id :: outer ∧ d.context caller.id = .ok caller ∧
      site = ⟨action, call, caller⟩ ∧
      d.resolveCall caller.id call.role call.service = .ok (context, reached) := by
  unfold callee Activity.context at h
  cases hcontexts : a.contexts with
  | nil =>
    rw [hcontexts] at h
    cases h
  | cons current outer =>
    rw [hcontexts] at h
    dsimp only at h
    cases hcaller : d.context current with
    | error e =>
      rw [hcaller] at h
      cases h
    | ok caller =>
      rw [hcaller] at h
      dsimp only at h
      have hid : caller.id = current := (Deployment.context_ok hcaller).2
      cases hresolved : d.resolveCall caller.id call.role call.service with
      | error e =>
        rw [hresolved] at h
        cases h
      | ok found =>
        rw [hresolved] at h
        injection h with h
        injection h with hsite hfound
        exact ⟨caller, outer, by rw [hid], by rw [hid, hcaller], hsite.symm, hfound ▸ hresolved⟩

/-- **Whoever calls, calls from a call site**, and reaches a behavior of the context called. -/
lemma callee_spec {b reached : Behavior} {action : Action} {call : ExternalCall} {site : CallSite}
    {context : ContextId} (hosted : Hosted d a.contexts b) (hmem : action ∈ b.actions)
    (hkind : action.kind = .externalCall call)
    (h : a.callee d action call = .ok (site, context, reached)) :
    d.IsCallSite site ∧ d.Hosts context reached := by
  obtain ⟨caller, outer, hcontexts, hcaller, rfl, hresolved⟩ := callee_ok h
  have hhosts : d.Hosts caller.id b := hosted caller.id (by rw [hcontexts]; rfl)
  exact ⟨⟨hcaller, hkind, b, hhosts, hmem⟩, .provided (Deployment.resolveCall_ok hresolved).1⟩

end Activity

end ServiceSim

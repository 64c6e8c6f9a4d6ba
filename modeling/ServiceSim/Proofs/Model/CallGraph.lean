import Mathlib.Order.WellFoundedSet
import Mathlib.SetTheory.Ordinal.Rank
import ServiceSim.Proofs.Interpreter.CallSites
import ServiceSim.Proofs.Model.References

/-!
# The call graph

A service of an assembly context calls another service if its behavior has, at any depth, an
external call that the connectors lead there (`Deployment.Calls`).  A deployment provides finitely
many services, so if the call graph has no cycle, calls cannot lead on forever
(`Acyclic.calls_wellFounded`).

The walk along a behavior leads into the behaviors that its actions hold, in the same context, and
into those that its calls reach, in the contexts that provide them (`Deployment.LeadsTo`).
Behaviors are finite trees, so without a cycle of calls this cannot go on forever either, wherever
it begins (`Acyclic.leadsTo_wellFounded`).
-/

namespace ServiceSim

/-- A service of an assembly context. -/
structure Endpoint where
  /-- The context. -/
  context : ContextId
  /-- The service. -/
  service : String

/-- A behavior that is interpreted, with the assembly context that is the current one, if there is
one. -/
abbrev Place := Option ContextId × Behavior

/-- A behavior is larger than those that its actions hold. -/
lemma Behavior.sizeOf_body_lt {b inner : Behavior} {action : Action} (hmem : action ∈ b.actions)
    (hinner : inner ∈ action.kind.bodies) : sizeOf inner < sizeOf b := by
  have hkind : sizeOf inner < sizeOf action.kind := by
    cases hkind : action.kind with
    | branch transitions =>
      rw [hkind] at hinner
      obtain ⟨t, ht, rfl⟩ := List.mem_map.mp hinner
      have hlist := List.sizeOf_lt_of_mem ht
      obtain ⟨condition, inner⟩ := t
      simp only [BranchTransition.mk.sizeOf_spec, ActionKind.branch.sizeOf_spec] at hlist ⊢
      omega
    | loop iterations body =>
      rw [hkind] at hinner
      rw [List.mem_singleton.mp hinner, ActionKind.loop.sizeOf_spec]
      omega
    | collectionIterator parameter body =>
      rw [hkind] at hinner
      rw [List.mem_singleton.mp hinner, ActionKind.collectionIterator.sizeOf_spec]
      omega
    | fork asynchronous synchronous =>
      rw [hkind] at hinner
      rw [ActionKind.fork.sizeOf_spec]
      rcases List.mem_append.mp hinner with hinner | hinner
      all_goals
        have hlist := List.sizeOf_lt_of_mem hinner
        omega
    | _ =>
      rw [hkind] at hinner
      cases hinner
  have haction := List.sizeOf_lt_of_mem hmem
  obtain ⟨name, actions⟩ := b
  obtain ⟨id, actionName, successor, kind⟩ := action
  simp only [Behavior.mk.sizeOf_spec, Action.mk.sizeOf_spec] at haction hkind ⊢
  omega

namespace Deployment

/-- **The edges of the call graph.** -/
inductive Calls (d : Deployment) : Endpoint → Endpoint → Prop
  | call {context providing : ContextId} {service : String} {root b reached : Behavior}
      {action : Action} {call : ExternalCall} : d.providedService context service = .ok root →
      root.IsWithin b → action ∈ b.actions → action.kind = .externalCall call →
      d.resolveCall context call.role call.service = .ok (providing, reached) →
      Calls d ⟨context, service⟩ ⟨providing, call.service⟩

/-- No service calls itself, not even through other services. -/
def Acyclic (d : Deployment) : Prop := ∀ x, ¬ Relation.TransGen d.Calls x x

/-- The walk along a behavior leads into another one. -/
inductive LeadsTo (d : Deployment) : Place → Place → Prop
  | body {context : Option ContextId} {b inner : Behavior} {action : Action} :
      action ∈ b.actions → inner ∈ action.kind.bodies → LeadsTo d (context, b) (context, inner)
  | call {context providing : ContextId} {b reached : Behavior} {action : Action}
      {call : ExternalCall} : action ∈ b.actions → action.kind = .externalCall call →
      d.resolveCall context call.role call.service = .ok (providing, reached) →
      LeadsTo d (some context, b) (some providing, reached)

variable {d : Deployment}

/-! ## Calls -/

/-- A deployment provides finitely many services. -/
lemma provided_finite (d : Deployment) :
    {x : Endpoint | ∃ b, d.providedService x.context x.service = .ok b}.Finite := by
  let contexts := d.model.assemblyContexts.map AssemblyContext.id
  let services := (d.model.components.flatMap Component.services).map ServiceEffect.service
  refine (List.finite_toSet (contexts.flatMap fun c => services.map (Endpoint.mk c))).subset ?_
  rintro ⟨context, service⟩ ⟨b, hprovided⟩
  obtain ⟨found, hfound, hid⟩ := List.any_eq_true.mp (providedService_declared hprovided)
  obtain ⟨component, hcomponent, effect, heffect, rfl, -⟩ := providedService_mem hprovided
  refine List.mem_flatMap.mpr ⟨context, List.mem_map.mpr ⟨found, hfound, by simpa using hid⟩, ?_⟩
  exact List.mem_map_of_mem (List.mem_map_of_mem
    (List.mem_flatMap.mpr ⟨component, hcomponent, heffect⟩))

/-- **Calls do not lead on forever** where the call graph has no cycle. -/
theorem Acyclic.calls_wellFounded (h : d.Acyclic) : WellFounded (flip d.Calls) := by
  -- Both ends of a call are services that the deployment provides.
  let reaches : Endpoint → Endpoint → Prop := fun y x => Relation.TransGen d.Calls x y
  have hstrict : IsStrictOrder Endpoint reaches :=
    { irrefl := h
      trans := fun _ _ _ hyx hzy => hzy.trans hyx }
  have hprovided := Set.wellFoundedOn_iff.mp (d.provided_finite.wellFoundedOn (r := reaches))
  refine Subrelation.wf (fun {y x} hcall => ⟨.single hcall, ?_⟩) hprovided
  obtain ⟨hroot, -, -, -, hresolved⟩ := hcall
  exact ⟨⟨_, (resolveCall_ok hresolved).1⟩, ⟨_, hroot⟩⟩

/-- A deployment whose connectors lead from higher to lower layers has no cycle of calls. -/
lemma acyclic_of_layers (layer : ContextId → Nat)
    (lower : ∀ connector ∈ d.model.connectors,
      layer connector.providing < layer connector.requiring) : d.Acyclic := by
  have hreach : ∀ x y, Relation.TransGen d.Calls x y → layer y.context < layer x.context := by
    intro x y hreach
    induction hreach with
    | single hcall =>
      obtain ⟨-, -, -, -, hresolved⟩ := hcall
      obtain ⟨-, connector, hmem, rfl, rfl⟩ := resolveCall_ok hresolved
      exact lower connector hmem
    | tail _ hcall ih =>
      obtain ⟨-, -, -, -, hresolved⟩ := hcall
      obtain ⟨-, connector, hmem, rfl, rfl⟩ := resolveCall_ok hresolved
      exact (lower connector hmem).trans ih
  exact fun x hcycle => lt_irrefl _ (hreach x x hcycle)

/-! ## Where walks lead -/

/-- The walk along a behavior cannot lead on forever if no call within it does. -/
lemma acc_of_calls {context : Option ContextId} {root : Behavior}
    (calls : ∀ caller ∈ context, ∀ b action call providing reached, root.IsWithin b →
      action ∈ b.actions → action.kind = .externalCall call →
      d.resolveCall caller call.role call.service = .ok (providing, reached) →
      Acc (flip d.LeadsTo) (some providing, reached)) : Acc (flip d.LeadsTo) (context, root) := by
  have hwithin : ∀ b, root.IsWithin b → Acc (flip d.LeadsTo) (context, b) := by
    intro b
    induction hsize : sizeOf b using Nat.strong_induction_on generalizing b with
    | _ n ih =>
      intro hb
      refine .intro _ fun place hleads => ?_
      cases hleads with
      | body hmem hinner =>
        exact ih _ (hsize ▸ Behavior.sizeOf_body_lt hmem hinner) _ rfl (hb.body hmem hinner)
      | call hmem hkind hresolved => exact calls _ rfl _ _ _ _ _ hb hmem hkind hresolved
  exact hwithin root .self

/-- **Walks do not lead on forever** where the call graph has no cycle. -/
theorem Acyclic.leadsTo_wellFounded (h : d.Acyclic) : WellFounded (flip d.LeadsTo) := by
  have hprovided : ∀ x : Endpoint, ∀ root, d.providedService x.context x.service = .ok root →
      Acc (flip d.LeadsTo) (some x.context, root) := by
    intro x
    induction x using h.calls_wellFounded.induction with
    | _ x ih =>
      intro root hroot
      refine acc_of_calls fun caller hcaller b action call providing reached hb hmem hkind
        hresolved => ?_
      injection hcaller with hcaller
      subst hcaller
      exact ih ⟨providing, call.service⟩ (.call hroot hb hmem hkind hresolved) reached
        (resolveCall_ok hresolved).1
  refine ⟨fun ⟨context, b⟩ => acc_of_calls fun _ _ _ _ call providing reached _ _ _ hresolved => ?_⟩
  exact hprovided ⟨providing, call.service⟩ reached (resolveCall_ok hresolved).1

/-- Ranks say how far walks can lead. -/
def IsRanked (d : Deployment) (rank : Place → Ordinal.{0}) : Prop :=
  ∀ outer inner, d.LeadsTo outer inner → rank inner < rank outer

/-- How far the walk along a behavior can lead. -/
noncomputable def Acyclic.rank (h : d.Acyclic) (place : Place) : Ordinal.{0} :=
  (h.leadsTo_wellFounded.apply place).rank

lemma Acyclic.isRanked (h : d.Acyclic) : d.IsRanked h.rank := fun outer _ leads =>
  Acc.rank_lt_of_rel (h.leadsTo_wellFounded.apply outer) leads

end Deployment

end ServiceSim

import ServiceSim.Model.System
import Mathlib.Tactic.Common

/-!
# References within a system

`SystemModel.validate` accepts a model exactly if all that its contexts, connectors and allocation
refer to is declared (`SystemModel.validate_ok_iff`).  A declaration may be made more than once, but
then the latest is found, so whatever is declared is found.

Look-ups follow references.  From a declared context they lead to declared contexts and containers
only, and they fail for other reasons than a dangling reference: a role that is not connected, a
service that is not provided, or a context that is not allocated.
-/

namespace ServiceSim

/-- Whether an error tells of a reference to something that is not declared. -/
def ModelError.isDangling : ModelError → Bool
  | unknownAssemblyContext _ => true
  | unknownComponent _ => true
  | unknownContainer _ => true
  | _ => false

/-! ## Validation -/

/-- Checks pass for a list if they pass for each of its elements. -/
lemma forM_ok_iff {ε α : Type} {check : α → Except ε Unit} {l : List α} :
    forM l check = .ok () ↔ ∀ x ∈ l, check x = .ok () := by
  induction l with
  | nil => simp [pure, Except.pure]
  | cons x l ih =>
    rw [List.forM_cons, List.forall_mem_cons, ← ih]
    cases check x with
    | error e => simp [bind, Except.bind]
    | ok u => simp [bind, Except.bind]

namespace SystemModel

variable {m : SystemModel}

lemma requireContext_ok_iff {id : ContextId} :
    m.requireContext id = .ok () ↔ m.hasContext id = true := by
  rw [requireContext]
  split_ifs with h <;> simp [h]

/-- **A model is accepted exactly if all that it refers to is declared.** -/
theorem validate_ok_iff : m.validate = .ok () ↔
    (∀ context ∈ m.assemblyContexts, m.hasComponent context.component = true) ∧
      (∀ connector ∈ m.connectors, m.hasContext connector.requiring = true ∧
        m.hasContext connector.providing = true) ∧
      ∀ entry ∈ m.allocation, m.hasContext entry.assemblyContext = true ∧
        m.hasContainer entry.container = true := by
  have andThen : ∀ first second : Except ModelError Unit,
      (first >>= fun _ => second) = .ok () ↔ first = .ok () ∧ second = .ok () := by
    intro first second
    cases first <;> simp [bind, Except.bind]
  have declared : ∀ (c : Bool) (e : ModelError),
      (if c = true then Except.ok () else .error e) = .ok () ↔ c = true := by
    intro c e
    split_ifs with h <;> simp [h]
  simp only [validate, andThen, List.forM_eq_forM, forM_ok_iff, requireContext_ok_iff, declared]

end SystemModel

namespace Deployment

variable {d : Deployment}

/-! ## What is declared is found -/

lemma latest?_mem {α : Type} {p : α → Bool} {items : List α} {x : α}
    (h : latest? p items = some x) : x ∈ items ∧ p x = true :=
  ⟨List.mem_reverse.mp (List.mem_of_find?_eq_some h), List.find?_some h⟩

lemma latest?_of_any {α : Type} {p : α → Bool} {items : List α} (h : items.any p = true) :
    ∃ x, latest? p items = some x := by
  rw [latest?, ← Option.isSome_iff_exists, List.find?_isSome]
  obtain ⟨x, hx, hp⟩ := List.any_eq_true.mp h
  exact ⟨x, List.mem_reverse.mpr hx, hp⟩

/-- A declared context is found, and so is the component that it deploys. -/
lemma context_found {id : ContextId} (h : d.model.hasContext id = true) :
    ∃ found component, d.context id = .ok found ∧ found.id = id ∧
      d.component found.component = .ok component := by
  obtain ⟨found, hfound⟩ := latest?_of_any h
  obtain ⟨hmem, hid⟩ := latest?_mem hfound
  obtain ⟨component, hcomponent⟩ :=
    latest?_of_any ((SystemModel.validate_ok_iff.mp d.checked).1 found hmem)
  refine ⟨found, component, ?_, by simpa using hid, ?_⟩
  · rw [context, hfound]
  · rw [Deployment.component, hcomponent]

/-! ## What is found is declared -/

lemma context_ok {id : ContextId} {found : AssemblyContext} (h : d.context id = .ok found) :
    found ∈ d.model.assemblyContexts ∧ found.id = id := by
  rw [context] at h
  split at h
  next hfound =>
    cases h
    exact (latest?_mem hfound).imp_right beq_iff_eq.mp
  · cases h

lemma component_ok {id : ComponentId} {found : Component} (h : d.component id = .ok found) :
    found ∈ d.model.components ∧ found.id = id := by
  rw [component] at h
  split at h
  next hfound =>
    cases h
    exact (latest?_mem hfound).imp_right beq_iff_eq.mp
  · cases h

/-- A context provides the services of the component that it deploys, and of those of one name the
first. -/
lemma providedService_ok_iff {id : ContextId} {service : String} {b : Behavior} :
    d.providedService id service = .ok b ↔ ∃ context component effect, d.context id = .ok context ∧
      d.component context.component = .ok component ∧
      component.services.find? (·.service == service) = some effect ∧ effect.behavior = b := by
  constructor
  · intro h
    rw [providedService] at h
    cases hcontext : d.context id with
    | error e =>
      rw [hcontext] at h
      cases h
    | ok context =>
      cases hcomponent : d.component context.component with
      | error e =>
        simp only [hcontext, hcomponent, bind, Except.bind] at h
        cases h
      | ok component =>
        simp only [hcontext, hcomponent, bind, Except.bind] at h
        split at h
        next effect heffect =>
          cases h
          exact ⟨context, component, effect, rfl, hcomponent, heffect, rfl⟩
        · cases h
  · rintro ⟨context, component, effect, hcontext, hcomponent, heffect, rfl⟩
    simp only [providedService, hcontext, hcomponent, heffect, bind, Except.bind]
    rfl

/-- A call follows a connector to a context that provides its service. -/
lemma resolveCall_ok {caller providing : ContextId} {role service : String} {b : Behavior}
    (h : d.resolveCall caller role service = .ok (providing, b)) :
    d.providedService providing service = .ok b ∧
      ∃ connector ∈ d.model.connectors, connector.requiring = caller ∧
        connector.providing = providing := by
  rw [resolveCall] at h
  split at h
  next connector hconnector =>
    cases hprovided : d.providedService connector.providing service with
    | error e =>
      rw [hprovided] at h
      cases h
    | ok found =>
      rw [hprovided] at h
      cases h
      obtain ⟨hmem, hfound⟩ := latest?_mem hconnector
      rw [Bool.and_eq_true, beq_iff_eq] at hfound
      exact ⟨hprovided, connector, hmem, hfound.1, rfl⟩
  · cases h

/-! ## References do not dangle -/

/-- Only a declared context provides services. -/
lemma providedService_declared {id : ContextId} {service : String} {b : Behavior}
    (h : d.providedService id service = .ok b) : d.model.hasContext id = true := by
  obtain ⟨found, -, -, hfound, -⟩ := providedService_ok_iff.mp h
  obtain ⟨hmem, hid⟩ := context_ok hfound
  exact List.any_eq_true.mpr ⟨found, hmem, beq_iff_eq.mpr hid⟩

/-- A declared context fails to provide a service only because its component has none. -/
lemma providedService_error {id : ContextId} {service : String} {e : ModelError}
    (declared : d.model.hasContext id = true) (h : d.providedService id service = .error e) :
    e.isDangling = false := by
  obtain ⟨found, component, hfound, -, hcomponent⟩ := context_found declared
  simp only [providedService, hfound, hcomponent, bind, Except.bind] at h
  split at h
  · cases h
  · injection h with h
    rw [← h]
    rfl

/-- A call leads to a declared context. -/
lemma resolveCall_declared {caller context : ContextId} {role service : String} {b : Behavior}
    (h : d.resolveCall caller role service = .ok (context, b)) :
    d.model.hasContext context = true :=
  providedService_declared (resolveCall_ok h).1

/-- A call fails because its role is not connected or the service is not provided. -/
lemma resolveCall_error {caller : ContextId} {role service : String} {e : ModelError}
    (h : d.resolveCall caller role service = .error e) : e.isDangling = false := by
  rw [resolveCall] at h
  split at h
  next connector hconnector =>
    have hdeclared := (SystemModel.validate_ok_iff.mp d.checked).2.1 connector
      (latest?_mem hconnector).1
    cases hprovided : d.providedService connector.providing service with
    | error e' =>
      rw [hprovided] at h
      injection h with h
      exact h ▸ providedService_error hdeclared.2 hprovided
    | ok found =>
      rw [hprovided] at h
      cases h
  · injection h with h
    rw [← h]
    rfl

/-- A context is allocated to a declared container. -/
lemma containerOf_declared {id : ContextId} {container : ContainerId}
    (h : d.containerOf id = .ok container) : d.model.hasContainer container = true := by
  rw [containerOf] at h
  split at h
  next entry hentry =>
    injection h with h
    exact h ▸ ((SystemModel.validate_ok_iff.mp d.checked).2.2 entry (latest?_mem hentry).1).2
  · cases h

/-- No container is found only for a context that is not allocated. -/
lemma containerOf_error {id : ContextId} {e : ModelError} (h : d.containerOf id = .error e) :
    e.isDangling = false := by
  rw [containerOf] at h
  split at h
  · cases h
  · injection h with h
    rw [← h]
    rfl

end Deployment

end ServiceSim

import ServiceSim.Proofs.Model.References
import ServiceSim.Proofs.Resources
import Mathlib.Data.List.Dedup
import Mathlib.Data.List.Flatten
import Mathlib.Data.Prod.Basic

/-!
# Declarations that count

The lists of a model may declare one identifier twice: only references are checked.  Of containers,
of the resources of a container, of contexts and of components the last declaration counts, of the
services of a component the first.  A declaration that does not count is shadowed, and a shadowed
container or component takes along all that it declares, whether or not the other declares the like.

The resources and services that count are those that look-ups find (`described_eq_some_iff`,
`providedService_eq_ok_iff`), and where no identifier is declared twice all of them count
(`IsUnambiguous.resources_count`, `IsUnambiguous.services_count`).
-/

namespace ServiceSim

/-! ## Shadowing -/

section Shadowing

variable {α : Type} {name : α → String} {l : List α} {a : α} {key : String}

/-- The elements of a list that no later one of the same name shadows. -/
def unshadowed (name : α → String) (l : List α) : List α := l.pwFilter fun a b => name a ≠ name b

lemma unshadowed_sublist (name : α → String) (l : List α) : (unshadowed name l).Sublist l :=
  List.pwFilter_sublist l

lemma unshadowed_nodup (name : α → String) (l : List α) : ((unshadowed name l).map name).Nodup :=
  List.pairwise_map.mpr (List.pairwise_pwFilter l)

lemma unshadowed_eq_self (distinct : (l.map name).Nodup) : unshadowed name l = l :=
  List.pwFilter_eq_self.mpr (List.pairwise_map.mp distinct)

/-- What is not shadowed is what a search from the end of the list meets first. -/
lemma latest?_eq_some_iff :
    Deployment.latest? (name · == key) l = some a ↔ a ∈ unshadowed name l ∧ name a = key := by
  induction l generalizing a key with
  | nil => simp [Deployment.latest?, unshadowed]
  | cons b l ih =>
    have hsearch : Deployment.latest? (name · == key) (b :: l) =
        (Deployment.latest? (name · == key) l).or ([b].find? (name · == key)) := by
      rw [Deployment.latest?, List.reverse_cons, List.find?_append]
      rfl
    rw [hsearch]
    by_cases hshadowed : ∀ c ∈ unshadowed name l, name b ≠ name c
    · have hkept : unshadowed name (b :: l) = b :: unshadowed name l :=
        List.pwFilter_cons_of_pos hshadowed
      rw [hkept, List.mem_cons]
      by_cases hb : name b = key
      · -- nothing later has the name, so `b` is found
        have hnone : Deployment.latest? (name · == key) l = none := by
          rw [Option.eq_none_iff_forall_ne_some]
          intro c hc
          obtain ⟨hmem, hname⟩ := ih.mp hc
          exact hshadowed c hmem (hb.trans hname.symm)
        rw [hnone, Option.none_or, List.find?_singleton, if_pos (beq_iff_eq.mpr hb),
          Option.some.injEq]
        constructor
        · rintro rfl
          exact ⟨.inl rfl, hb⟩
        · rintro ⟨rfl | hmem, hname⟩
          · rfl
          · exact absurd (hb.trans hname.symm) (hshadowed a hmem)
      · rw [List.find?_singleton, if_neg (by simpa using hb), Option.or_none, ih]
        constructor
        · rintro ⟨hmem, hname⟩
          exact ⟨.inr hmem, hname⟩
        · rintro ⟨rfl | hmem, hname⟩
          · exact absurd hname hb
          · exact ⟨hmem, hname⟩
    · have hkept : unshadowed name (b :: l) = unshadowed name l :=
        List.pwFilter_cons_of_neg hshadowed
      rw [hkept, ← ih]
      by_cases hb : name b = key
      · push Not at hshadowed
        obtain ⟨c, hmem, hname⟩ := hshadowed
        rw [ih.mpr ⟨hmem, hname.symm.trans hb⟩, Option.some_or]
      · rw [List.find?_singleton, if_neg (by simpa using hb), Option.or_none]

/-- The elements of a list that no earlier one of the same name shadows. -/
def foremost (name : α → String) (l : List α) : List α := (unshadowed name l.reverse).reverse

lemma find?_eq_some_iff :
    l.find? (name · == key) = some a ↔ a ∈ foremost name l ∧ name a = key := by
  have h : Deployment.latest? (name · == key) l.reverse = some a ↔
      a ∈ unshadowed name l.reverse ∧ name a = key := latest?_eq_some_iff
  rwa [Deployment.latest?, List.reverse_reverse, ← List.mem_reverse] at h

lemma foremost_eq_self (distinct : (l.map name).Nodup) : foremost name l = l := by
  have hreverse : (l.reverse.map name).Nodup := by
    rw [List.map_reverse]
    exact List.nodup_reverse.mpr distinct
  rw [foremost, unshadowed_eq_self hreverse, List.reverse_reverse]

end Shadowing

/-! ## Resources and services -/

namespace SystemModel

/-- The resources that a model declares, with the containers that declare them. -/
def declaredResources (m : SystemModel) : List (ContainerId × ProcessingResource) :=
  m.containers.flatMap fun c => c.resources.map (c.id, ·)

/-- The resources whose declarations count. -/
def countedResources (m : SystemModel) : List (ContainerId × ProcessingResource) :=
  (unshadowed (·.id) m.containers).flatMap fun c =>
    (unshadowed (·.resource) c.resources).map (c.id, ·)

/-- The services that components declare, with the contexts that deploy the components. -/
def declaredServices (m : SystemModel) : List (ContextId × ServiceEffect) :=
  m.assemblyContexts.flatMap fun context =>
    (m.components.filter (·.id == context.component)).flatMap fun component =>
      component.services.map (context.id, ·)

/-- The services whose declarations count. -/
def countedServices (m : SystemModel) : List (ContextId × ServiceEffect) :=
  (unshadowed (·.id) m.assemblyContexts).flatMap fun context =>
    ((unshadowed (·.id) m.components).filter (·.id == context.component)).flatMap fun component =>
      (foremost (·.service) component.services).map (context.id, ·)

/-- No identifier is declared twice where it would have to be looked up. -/
structure IsUnambiguous (m : SystemModel) : Prop where
  containers : (m.containers.map (·.id)).Nodup
  resources : ∀ c ∈ m.containers, (c.resources.map (·.resource)).Nodup
  contexts : (m.assemblyContexts.map (·.id)).Nodup
  components : (m.components.map (·.id)).Nodup
  services : ∀ c ∈ m.components, (c.services.map (·.service)).Nodup

variable {m : SystemModel} {key : ResourceKey} {spec : ProcessingResource}

lemma countedResources_sublist (m : SystemModel) :
    m.countedResources.Sublist m.declaredResources := by
  have hinner : m.countedResources.Sublist
      ((unshadowed (·.id) m.containers).flatMap fun c => c.resources.map (c.id, ·)) :=
    List.Sublist.flatMap_right _ fun c _ => (unshadowed_sublist (·.resource) c.resources).map _
  exact hinner.trans ((unshadowed_sublist (·.id) m.containers).flatMap _)

/-- No two declarations that count are of the same resource. -/
lemma countedResources_nodup (m : SystemModel) :
    (m.countedResources.map fun p => ((p.1, p.2.resource) : ResourceKey)).Nodup := by
  rw [countedResources, List.map_flatMap, List.nodup_flatMap]
  simp only [List.map_map]
  constructor
  · intro c _
    have hnodup := (unshadowed_nodup (·.resource) c.resources).map
      (Prod.mk_right_injective c.id)
    rwa [List.map_map] at hnodup
  · refine (List.pairwise_map.mp (unshadowed_nodup (·.id) m.containers)).imp ?_
    intro c c' hne x hx hx'
    obtain ⟨spec, -, rfl⟩ := List.mem_map.mp hx
    obtain ⟨spec', -, heq⟩ := List.mem_map.mp hx'
    exact hne (congrArg Prod.fst heq).symm

lemma mem_countedResources {container : ContainerId} :
    (container, spec) ∈ m.countedResources ↔ ∃ c ∈ unshadowed (·.id) m.containers,
      c.id = container ∧ spec ∈ unshadowed (·.resource) c.resources := by
  simp only [countedResources, List.mem_flatMap, List.mem_map, Prod.mk.injEq]
  constructor
  · rintro ⟨c, hc, spec', hspec, hid, rfl⟩
    exact ⟨c, hc, hid, hspec⟩
  · rintro ⟨c, hc, hid, hspec⟩
    exact ⟨c, hc, spec, hspec, hid, rfl⟩

/-- What a model describes of a resource is the declaration that counts. -/
theorem described_eq_some_iff : Resources.described m.containers key = some spec ↔
    (key.1, spec) ∈ m.countedResources ∧ spec.resource = key.2 := by
  rw [Resources.described, Option.bind_eq_some_iff, mem_countedResources]
  constructor
  · rintro ⟨c, hc, hspec⟩
    obtain ⟨hcounts, hid⟩ := latest?_eq_some_iff.mp hc
    obtain ⟨hmem, hresource⟩ := latest?_eq_some_iff.mp hspec
    exact ⟨⟨c, hcounts, hid, hmem⟩, hresource⟩
  · rintro ⟨⟨c, hcounts, hid, hmem⟩, hresource⟩
    exact ⟨c, latest?_eq_some_iff.mpr ⟨hcounts, hid⟩,
      latest?_eq_some_iff.mpr ⟨hmem, hresource⟩⟩

/-- Where no identifier is declared twice, every declared resource counts. -/
theorem IsUnambiguous.resources_count (h : m.IsUnambiguous) :
    m.countedResources = m.declaredResources := by
  rw [countedResources, declaredResources, unshadowed_eq_self h.containers]
  refine List.flatMap_congr fun c hc => ?_
  rw [unshadowed_eq_self (h.resources c hc)]

/-- Where no identifier is declared twice, every declared service counts. -/
theorem IsUnambiguous.services_count (h : m.IsUnambiguous) :
    m.countedServices = m.declaredServices := by
  rw [countedServices, declaredServices, unshadowed_eq_self h.contexts,
    unshadowed_eq_self h.components]
  refine List.flatMap_congr fun context _ => List.flatMap_congr fun component hcomponent => ?_
  rw [foremost_eq_self (h.services component (List.mem_of_mem_filter hcomponent))]

end SystemModel

namespace Deployment

open SystemModel

variable {d : Deployment} {id : ContextId} {service : String} {behavior : Behavior}

lemma context_eq_ok_iff {context : AssemblyContext} : d.context id = .ok context ↔
    context ∈ unshadowed (·.id) d.model.assemblyContexts ∧ context.id = id := by
  rw [← latest?_eq_some_iff, Deployment.context]
  split
  next found hfound => simp [hfound]
  next hnone => simp [hnone]

lemma component_eq_ok_iff {id : ComponentId} {component : Component} :
    d.component id = .ok component ↔
      component ∈ unshadowed (·.id) d.model.components ∧ component.id = id := by
  rw [← latest?_eq_some_iff, Deployment.component]
  split
  next found hfound => simp [hfound]
  next hnone => simp [hnone]

/-- A context provides the services of its component whose declarations count, and no others. -/
theorem providedService_eq_ok_iff : d.providedService id service = .ok behavior ↔
    ∃ effect, (id, effect) ∈ d.model.countedServices ∧ effect.service = service ∧
      effect.behavior = behavior := by
  have hmem : ∀ effect, (id, effect) ∈ d.model.countedServices ↔ ∃ context component,
      d.context id = .ok context ∧ d.component context.component = .ok component ∧
        effect ∈ foremost (·.service) component.services := by
    intro effect
    simp only [countedServices, List.mem_flatMap, List.mem_map, List.mem_filter, Prod.mk.injEq,
      beq_iff_eq, context_eq_ok_iff, component_eq_ok_iff]
    constructor
    · rintro ⟨context, hcontext, component, ⟨hcomponent, hdeployed⟩, effect', heffect, hid, rfl⟩
      exact ⟨context, component, ⟨hcontext, hid⟩, ⟨hcomponent, hdeployed⟩, heffect⟩
    · rintro ⟨context, component, ⟨hcontext, hid⟩, ⟨hcomponent, hdeployed⟩, heffect⟩
      exact ⟨context, hcontext, component, ⟨hcomponent, hdeployed⟩, effect, heffect, hid, rfl⟩
  rw [providedService_ok_iff]
  simp only [hmem]
  constructor
  · rintro ⟨context, component, effect, hcontext, hcomponent, hfind, hbehavior⟩
    obtain ⟨heffect, hservice⟩ := find?_eq_some_iff.mp hfind
    exact ⟨effect, ⟨context, component, hcontext, hcomponent, heffect⟩, hservice, hbehavior⟩
  · rintro ⟨effect, ⟨context, component, hcontext, hcomponent, heffect⟩, hservice, hbehavior⟩
    exact ⟨context, component, effect, hcontext, hcomponent,
      find?_eq_some_iff.mpr ⟨heffect, hservice⟩, hbehavior⟩

end Deployment

end ServiceSim

import ServiceSim.Proofs.Evaluation.Resolution
import ServiceSim.Proofs.Model.Declarations
import ServiceSim.Proofs.Simulation.Chronicle

/-!
# What a simulation finds of its model

A simulation enters the resources of its model into two levels of maps, and its runs change them one
demand at a time.  Of every resource it keeps for good where it is entered, at what rate it works and
how many servers it has: the layout of the resources is that of the start.

So in every state of a simulation the declarations that count are found, each with its own values
and with one entry of the statistics, and nothing else is found (`declarations_found`).  Where no
identifier is declared twice this holds of all declarations; where a declaration is shadowed, the
statistics are shorter than the list of the declared resources.
-/

namespace ServiceSim

/-! ## Maps -/

namespace NameMap

variable {α β : Type} {m : NameMap α} {name : String} {a b : α}

/-- Replacing a value by one that looks the same changes nothing that is seen. -/
lemma map_insert (h : m.Ascending) (found : m.lookup name = some a) {f : String × α → β}
    (same : f (name, b) = f (name, a)) : (insert name b m).map f = m.map f := by
  induction m with
  | nil => cases found
  | cons p rest ih =>
    obtain ⟨key, c⟩ := p
    obtain ⟨hkey, hrest⟩ := List.pairwise_cons.mp h
    rw [List.lookup_cons] at found
    by_cases hname : name = key
    · subst hname
      rw [beq_self_eq_true, Option.some.injEq] at found
      subst found
      simp [insert, same]
    · rw [beq_false_of_ne hname] at found
      have hlt : ¬ name < key := by
        intro hlt
        have hmem : (name, a) ∈ rest := (Ascending.lookup_eq_some_iff hrest).mp found
        exact String.lt_irrefl _ (String.lt_trans hlt (hkey _ hmem))
      simp only [insert, if_neg hname, if_neg hlt, List.map_cons, ih hrest found]

/-- Looking up in a map whose values have been replaced by what is seen of them. -/
lemma lookup_map (f : α → β) (m : NameMap α) (name : String) :
    List.lookup name (m.map fun p => (p.1, f p.2)) = (m.lookup name).map f := by
  induction m with
  | nil => rfl
  | cons p rest ih =>
    obtain ⟨key, c⟩ := p
    simp only [List.map_cons, List.lookup_cons]
    cases name == key
    · exact ih
    · rfl

lemma ascending_map (f : α → β) (m : NameMap α) :
    NameMap.Ascending (m.map fun p => (p.1, f p.2)) ↔ m.Ascending :=
  List.pairwise_map

/-- What every entry into a map keeps holds of values that are entered one after the other. -/
lemma entered_induction {ε : Type} {name : β → String} {f : β → Except ε α} {l : List β}
    {P : NameMap α → Prop} (enters : ∀ m x a, P m → f x = .ok a → P (insert (name x) a m))
    {m m' : NameMap α} (start : P m)
    (h : l.foldlM (fun m x => do return insert (name x) (← f x) m) m = .ok m') : P m' := by
  induction l generalizing m with
  | nil =>
    cases h
    exact start
  | cons x l ih =>
    rw [List.foldlM_cons] at h
    cases hx : f x with
    | error e =>
      rw [hx] at h
      cases h
    | ok a =>
      rw [hx] at h
      exact ih (enters m x a start hx) h

/-- A map that has been filled is in order, and its values are as they have been entered. -/
lemma entered_ordered {ε : Type} {name : β → String} {f : β → Except ε α} {l : List β}
    {m : NameMap α} {P : String → α → Prop} (enters : ∀ x a, f x = .ok a → P (name x) a)
    (h : l.foldlM (fun m x => do return insert (name x) (← f x) m) [] = .ok m) :
    m.Ascending ∧ ∀ p ∈ m, P p.1 p.2 := by
  refine entered_induction (P := fun m => m.Ascending ∧ ∀ p ∈ m, P p.1 p.2) ?_
    ⟨List.Pairwise.nil, by simp⟩ h
  rintro m x a ⟨ascending, holds⟩ hx
  refine ⟨ascending.insert _ _, fun p hp => ?_⟩
  rcases eq_or_mem_of_mem_insert hp with rfl | hp
  · exact enters x a hx
  · exact holds p hp

end NameMap

/-! ## The layout of resources -/

/-- What stays the same of a resource. -/
structure Setup where
  /-- The container. -/
  container : ContainerId
  /-- The type of the resource. -/
  resource : String
  /-- The work done in a second. -/
  rate : Float
  /-- The number of servers, unless it is a pure delay. -/
  servers : Option Nat

/-- The setup of a resource that is simulated. -/
def ActiveResource.setup (r : ActiveResource) : Setup :=
  ⟨r.stats.container, r.stats.resource, r.rate, r.servers.map (·.count)⟩

/-- The setup that a resource is declared to have. -/
def ProcessingResource.setup (container : ContainerId) (spec : ProcessingResource) : Setup where
  container := container
  resource := spec.resource
  rate := spec.processingRate
  servers := match spec.scheduling with
    | .fcfs => some spec.servers
    | .delay => none

lemma ActiveResource.ofSpec_setup {container : ContainerId} {spec : ProcessingResource}
    {r : ActiveResource} (h : ofSpec container spec = .ok r) : r.setup = spec.setup container := by
  obtain ⟨hrate, hstats, ⟨hfcfs, -, hservers⟩ | ⟨hdelay, hservers⟩⟩ := Resources.ofSpec_ok h
  · rw [setup, ProcessingResource.setup, hrate, hstats, hservers, hfcfs]
    rfl
  · rw [setup, ProcessingResource.setup, hrate, hstats, hservers, hdelay]
    rfl

/-- Setups by containers and types. -/
abbrev Layout := NameMap (NameMap Setup)

/-- **A layout in order**: no container and no resource of a container occurs twice, and setups are
entered under their own names. -/
structure Layout.InOrder (layout : Layout) : Prop where
  containers : NameMap.Ascending layout
  resources : ∀ p ∈ layout, NameMap.Ascending p.2
  names : ∀ p ∈ layout, ∀ q ∈ p.2, q.2.container = p.1 ∧ q.2.resource = q.1

namespace Resources

variable {rs rs' : Resources} {container : ContainerId} {resource : String} {r : ActiveResource}
  {now : SimTime} {id : ProcessId} {amount : Float} {load : Load} {granted : Bool}
  {started : SimTime} {woken : Option ProcessId}

/-- The setups of all resources. -/
def layout (rs : Resources) : Layout :=
  rs.containers.map fun p => (p.1, p.2.map fun q => (q.1, q.2.setup))

lemma layout_lookup (rs : Resources) (key : ResourceKey) :
    (rs.layout.lookup key.1).bind (·.lookup key.2) =
      (rs.find key.1 key.2).toOption.map (·.setup) := by
  rw [layout, NameMap.lookup_map fun resources : NameMap ActiveResource =>
    resources.map fun q => (q.1, q.2.setup), find]
  cases rs.containers.lookup key.1 with
  | none => rfl
  | some resources =>
    simp only [Option.map_some, Option.bind_some, NameMap.lookup_map ActiveResource.setup]
    cases resources.lookup key.2 <;> rfl

/-- Replacing a resource by one of the same setup keeps the layout. -/
lemma layout_update (ordered : rs.layout.InOrder) (found : rs.find container resource = .ok r)
    {changed : ActiveResource} (same : changed.setup = r.setup) :
    (rs.update container resource changed).layout = rs.layout := by
  have hcontainers : NameMap.Ascending rs.containers :=
    (NameMap.ascending_map _ _).mp ordered.containers
  rw [find] at found
  cases hcontainer : rs.containers.lookup container with
  | none =>
    rw [hcontainer] at found
    cases found
  | some resources =>
    have hmem : (container, resources) ∈ rs.containers :=
      (NameMap.Ascending.lookup_eq_some_iff hcontainers).mp hcontainer
    have hresources : NameMap.Ascending resources :=
      (NameMap.ascending_map _ _).mp (ordered.resources _ (List.mem_map_of_mem hmem))
    simp only [hcontainer] at found
    cases hresource : resources.lookup resource with
    | none =>
      rw [hresource] at found
      cases found
    | some r' =>
      rw [hresource] at found
      cases found
      simp only [update, hcontainer, layout]
      refine NameMap.map_insert hcontainers hcontainer ?_
      dsimp only
      rw [NameMap.map_insert hresources hresource]
      rw [same]

lemma issue_layout (ordered : rs.layout.InOrder)
    (h : rs.issue now id container resource amount = .ok (load, granted, rs')) :
    rs'.layout = rs.layout := by
  obtain ⟨-, r, found, -, ⟨-, -, rfl⟩ | ⟨s, hservers, -, rfl⟩⟩ := issue_ok h
  · rfl
  · refine layout_update ordered found ?_
    simp only [ActiveResource.setup, hservers, Option.map_some, Servers.acquire_count]

lemma complete_layout (ordered : rs.layout.InOrder)
    (h : rs.complete id load started = (woken, rs')) : rs'.layout = rs.layout := by
  rcases complete_spec h with ⟨-, -, rfl⟩ |
    ⟨r, found, recorded, hrate, hcontainer, hresource, -, rfl, hcases⟩
  · rfl
  · refine layout_update ordered found ?_
    have hcount : recorded.servers.map (·.count) = r.servers.map (·.count) := by
      rcases hcases with ⟨hservers, hrecorded, -⟩ | ⟨s, hservers, hrecorded, -⟩
      · rw [hrecorded, hservers]
      · rw [hrecorded, hservers, Option.map_some, Option.map_some, Servers.release_count]
    rw [ActiveResource.setup, ActiveResource.setup, hcontainer, hresource, hrate, hcount]

/-! ### Resources at the start -/

lemma ofContainer_ordered {c : ResourceContainer} {resources : NameMap ActiveResource}
    (h : ofContainer c = .ok resources) : NameMap.Ascending resources ∧
      ∀ q ∈ resources, q.2.setup.container = c.id ∧ q.2.setup.resource = q.1 := by
  refine NameMap.entered_ordered
    (P := fun name r => r.setup.container = c.id ∧ r.setup.resource = name) ?_ h
  intro spec r hr
  rw [ActiveResource.ofSpec_setup hr]
  exact ⟨rfl, rfl⟩

lemma ofContainers_ordered {containers : List ResourceContainer}
    (h : ofContainers containers = .ok rs) : rs.layout.InOrder := by
  obtain ⟨houter, hinner⟩ := NameMap.entered_ordered (P := fun name resources =>
    NameMap.Ascending resources ∧
      ∀ q ∈ resources, q.2.setup.container = name ∧ q.2.setup.resource = q.1)
    (fun c resources => ofContainer_ordered) (ofContainers_ok h)
  refine ⟨(NameMap.ascending_map _ _).mpr houter, ?_, ?_⟩
  · intro p hp
    obtain ⟨p', hp', rfl⟩ := List.mem_map.mp hp
    exact (NameMap.ascending_map _ _).mpr (hinner p' hp').1
  · intro p hp q hq
    obtain ⟨p', hp', rfl⟩ := List.mem_map.mp hp
    obtain ⟨q', hq', rfl⟩ := List.mem_map.mp hq
    exact (hinner p' hp').2 q' hq'

/-! ### Statistics -/

/-- The resources that the statistics have entries about, in their order. -/
def reported (rs : Resources) : List ResourceKey :=
  rs.statistics.map fun entry => (entry.container, entry.resource)

lemma reported_eq (ordered : rs.layout.InOrder) :
    rs.reported = rs.layout.flatMap fun p => p.2.map fun q => (p.1, q.1) := by
  rw [reported, statistics, layout, List.map_flatMap, List.flatMap_map]
  refine List.flatMap_congr fun p hp => ?_
  rw [List.map_map, List.map_map]
  refine List.map_congr_left fun q hq => ?_
  obtain ⟨hcontainer, hresource⟩ := ordered.names _ (List.mem_map_of_mem hp) _
    (List.mem_map_of_mem hq)
  exact Prod.ext hcontainer hresource

/-- No two entries are about the same resource. -/
lemma reported_nodup (ordered : rs.layout.InOrder) : rs.reported.Nodup := by
  rw [reported_eq ordered, List.nodup_flatMap]
  constructor
  · intro p hp
    refine List.pairwise_map.mpr ((ordered.resources p hp).imp ?_)
    intro q q' hlt heq
    exact Std.ne_of_lt hlt (congrArg Prod.snd heq)
  · refine ordered.containers.imp ?_
    intro p p' hlt key hkey hkey'
    obtain ⟨q, -, rfl⟩ := List.mem_map.mp hkey
    obtain ⟨q', -, heq⟩ := List.mem_map.mp hkey'
    exact Std.ne_of_lt hlt (congrArg Prod.fst heq).symm

/-- There are entries about the resources that are found, and about no others. -/
lemma mem_reported (ordered : rs.layout.InOrder) {key : ResourceKey} :
    key ∈ rs.reported ↔ ∃ r, rs.find key.1 key.2 = .ok r := by
  obtain ⟨container, resource⟩ := key
  have hlookup : (container, resource) ∈ rs.reported ↔
      ∃ setup, (rs.layout.lookup container).bind (·.lookup resource) = some setup := by
    rw [reported_eq ordered]
    simp only [List.mem_flatMap, List.mem_map, Option.bind_eq_some_iff, Prod.mk.injEq]
    constructor
    · rintro ⟨⟨_, setups⟩, hp, ⟨_, setup⟩, hq, rfl, rfl⟩
      exact ⟨setup, setups, ordered.containers.lookup_eq_some_iff.mpr hp,
        (ordered.resources _ hp).lookup_eq_some_iff.mpr hq⟩
    · rintro ⟨setup, setups, hsetups, hsetup⟩
      have hp := ordered.containers.lookup_eq_some_iff.mp hsetups
      exact ⟨_, hp, _, (ordered.resources _ hp).lookup_eq_some_iff.mp hsetup, rfl, rfl⟩
  rw [hlookup, rs.layout_lookup (container, resource)]
  cases rs.find container resource with
  | error e => simp [Except.toOption]
  | ok r => simp [Except.toOption]

end Resources

/-! ## Steps -/

namespace Kernel

open Activity

variable {d : Deployment} {k k' : Kernel Environment Activity} {stop : Option SimTime}

/-- **What issuing and completing demands keeps, every step keeps.** -/
lemma step_keeps_resources {P : Resources → Prop}
    (issues : ∀ {rs rs' now id container resource amount load granted}, P rs →
      rs.issue now id container resource amount = .ok (load, granted, rs') → P rs')
    (completes : ∀ {rs rs' id load started woken}, P rs →
      rs.complete id load started = (woken, rs') → P rs')
    (h : k.Queued) (holds : P k.world.resources)
    (hstep : k.step (program d) stop = .goes k') : P k'.world.resources := by
  rcases step_cases h.joined.order hstep with quiet | ⟨id, a, runs, turned⟩
  · rw [quiet.resources]
    exact holds
  · have heffect := advance_effect d k.now id k.world (h.joined.settled _ (running_mem runs))
    rw [turned.world]
    change P (a.turn d k.now id k.world).world.resources
    unfold turn
    generalize a.advance d k.now id k.world = progress at heffect
    cases heffect with
    | proceeds _ _ steady => exact steady.resources ▸ holds
    | arrives => exact holds
    | granted _ _ hissue => exact issues holds hissue
    | queued _ _ hissue => exact issues holds hissue
    | serves _ steady => exact steady.resources ▸ holds
    | completes _ hcomplete => exact completes holds hcomplete
    | forks _ _ _ steady => exact steady.resources ▸ holds
    | joins => exact holds
    | awaits => exact holds
    | ends _ _ steady =>
      rw [report_resources]
      exact steady.resources ▸ holds
    | fails =>
      rw [report_resources]
      exact holds

end Kernel

namespace Simulation

variable {Log : Type} {config : SimulationConfig} {model : SystemModel} {o : Observer Log}
  {s : Simulation} {l : Log}

/-- The lines of resources and the processes agree in every state. -/
lemma Chronicle.queued (h : Chronicle config model o s l) : s.kernel.Queued := by
  induction h with
  | begins hmodel => exact ofModel_queued hmodel
  | submits _ hsubmit ih =>
    obtain ⟨behavior, -, -, rfl⟩ := submit_ok hsubmit
    exact Kernel.spawn_queued ih (Activity.ofRequest_awake _ _ _ _ _) rfl
  | goes _ hstep ih => exact Kernel.step_queued ih hstep
  | rests _ hstep ih => exact (Kernel.step_ends ih.joined.order hstep).1.queued ih
  | notes event _ ih => exact Kernel.mapWorld_queued ih ((Environment.Steady.refl _).note _)
  | reconfigures reconfigurator _ ih =>
    exact Kernel.mapWorld_queued (f := fun env => { env with reconfigurator := reconfigurator }) ih
      ((Environment.Steady.refl _).reconfigured _)
  | reports _ ih => exact ih

/-- The layout of the resources is that of the start. -/
lemma Chronicle.layout (h : Chronicle config model o s l) :
    ∃ rs, Resources.ofContainers model.containers = .ok rs ∧
      s.kernel.world.resources.layout = rs.layout := by
  induction h with
  | begins hmodel =>
    obtain ⟨rs, hrs, -, -, -, -, hkernel⟩ := ofModel_ok hmodel
    refine ⟨rs, hrs, ?_⟩
    rw [hkernel]
    rfl
  | submits _ hsubmit ih =>
    obtain ⟨behavior, -, -, rfl⟩ := submit_ok hsubmit
    exact ih
  | goes hbefore hstep ih =>
    obtain ⟨rs, hrs, hlayout⟩ := ih
    have hordered : rs.layout.InOrder := Resources.ofContainers_ordered hrs
    refine ⟨rs, hrs, Kernel.step_keeps_resources (P := fun now => now.layout = rs.layout)
      ?_ ?_ hbefore.queued hlayout hstep⟩
    · intro now now' _ _ _ _ _ _ _ heq hissue
      exact (Resources.issue_layout (heq ▸ hordered) hissue).trans heq
    · intro now now' _ _ _ _ heq hcomplete
      exact (Resources.complete_layout (heq ▸ hordered) hcomplete).trans heq
  | rests hbefore hstep ih =>
    obtain ⟨rs, hrs, hlayout⟩ := ih
    refine ⟨rs, hrs, ?_⟩
    have quiet := (Kernel.step_ends hbefore.queued.joined.order hstep).1
    exact (congrArg Resources.layout quiet.resources).trans hlayout
  | notes _ _ ih => exact ih
  | reconfigures _ _ ih => exact ih
  | reports _ ih => exact ih

/-! ## Declarations -/

/-- A resource is simulated as it is declared: with its rate and its servers, and a demand on it takes
as long as its amount divided by that rate and is served at once if one of those servers is free. -/
structure Realizes (rs : Resources) (container : ContainerId) (spec : ProcessingResource)
    (r : ActiveResource) : Prop where
  found : rs.find container spec.resource = .ok r
  setup : r.setup = spec.setup container
  serves : ∀ now id amount, IsValidAmount amount → ∃ rs',
    rs.issue now id container spec.resource amount =
      .ok (⟨container, spec.resource, amount, amount / spec.processingRate, now⟩,
        r.servers.all fun servers => servers.serving.length < spec.servers, rs')

lemma realizes_of_setup {rs : Resources} {container : ContainerId} {spec : ProcessingResource}
    {r : ActiveResource} (found : rs.find container spec.resource = .ok r)
    (setup : r.setup = spec.setup container) : Realizes rs container spec r := by
  refine ⟨found, setup, fun now id amount valid => ?_⟩
  have hrate : r.rate = spec.processingRate := congrArg Setup.rate setup
  have hservers : r.servers.map (·.count) = (spec.setup container).servers :=
    congrArg Setup.servers setup
  cases hissue : rs.issue now id container spec.resource amount with
  | error e => exact absurd hissue (Resources.issue_valid valid found e)
  | ok issued =>
    obtain ⟨load, granted, rs'⟩ := issued
    obtain ⟨-, r', hfind, rfl, hcases⟩ := Resources.issue_ok hissue
    obtain rfl : r' = r := Except.ok.inj (hfind.symm.trans found)
    refine ⟨rs', ?_⟩
    rw [hrate]
    rcases hcases with ⟨hnone, rfl, -⟩ | ⟨servers, hsome, rfl, -⟩
    · rw [hnone]
      rfl
    · have hcount : servers.count = spec.servers := by
        rw [hsome, Option.map_some, ProcessingResource.setup] at hservers
        cases hscheduling : spec.scheduling with
        | fcfs => simpa [hscheduling] using hservers
        | delay => simp [hscheduling] at hservers
      rw [hsome, Option.all_some, Servers.acquire, hcount]
      split_ifs with hfree
      · simp [hfree]
      · simp [hfree]

/-- **What a simulation finds of its model.** -/
structure Finds (model : SystemModel) (s : Simulation) : Prop where
  /-- Every resource whose declaration counts is simulated as it is declared. -/
  resources : ∀ p ∈ model.countedResources, ∃ r, Realizes s.kernel.world.resources p.1 p.2 r
  /-- Nothing else is found. -/
  only : ∀ container resource r, s.kernel.world.resources.find container resource = .ok r →
    ∃ spec, (container, spec) ∈ model.countedResources ∧ spec.resource = resource
  /-- There is one entry of the statistics for each declaration that counts. -/
  reported : s.kernel.world.resources.reported.Perm
    (model.countedResources.map fun p => (p.1, p.2.resource))
  /-- There is never more than one. -/
  once : s.kernel.world.resources.reported.Nodup
  /-- As many as are declared if all declarations count, and fewer if any is shadowed. -/
  complete : s.kernel.world.resources.statistics.length = model.declaredResources.length ↔
    model.countedResources = model.declaredResources
  /-- A context provides the services whose declarations count. -/
  services : ∀ id service behavior, s.deployment.providedService id service = .ok behavior ↔
    ∃ effect, (id, effect) ∈ model.countedServices ∧ effect.service = service ∧
      effect.behavior = behavior
  /-- All declarations count where no identifier is declared twice. -/
  unambiguous : model.IsUnambiguous → model.countedResources = model.declaredResources ∧
    model.countedServices = model.declaredServices

/-- **The declarations that count are found.**  In every state of the simulation of a model, each
resource that no later declaration shadows is simulated with its own rate and servers, it has one
entry of the statistics, and each service that is not shadowed is provided by the contexts that
deploy its component. -/
theorem declarations_found (h : Chronicle config model o s l) : s.Finds model := by
  obtain ⟨rs, hrs, hlayout⟩ := h.layout
  have hordered : s.kernel.world.resources.layout.InOrder :=
    hlayout ▸ Resources.ofContainers_ordered hrs
  have hstart : ∀ key : ResourceKey, (s.kernel.world.resources.find key.1 key.2).toOption.map
      (·.setup) = (rs.find key.1 key.2).toOption.map (·.setup) := by
    intro key
    rw [← Resources.layout_lookup, ← Resources.layout_lookup, hlayout]
  have hfound : ∀ p ∈ model.countedResources, ∃ r,
      Realizes s.kernel.world.resources p.1 p.2 r := by
    rintro ⟨container, spec⟩ hp
    have hdescribed : Resources.described model.containers (container, spec.resource) = some spec :=
      SystemModel.described_eq_some_iff.mpr ⟨hp, rfl⟩
    have hentered := Resources.ofContainers_find hrs (container, spec.resource)
    rw [hdescribed] at hentered
    obtain ⟨r₀, hspec, hr₀⟩ := hentered
    have hsetup := hstart (container, spec.resource)
    simp only [hr₀, Except.toOption, Option.map_some, ActiveResource.ofSpec_setup hspec] at hsetup
    cases hr : s.kernel.world.resources.find container spec.resource with
    | error e => simp [hr] at hsetup
    | ok r =>
      rw [hr] at hsetup
      exact ⟨r, realizes_of_setup hr (Option.some.inj hsetup)⟩
  have honly : ∀ container resource r,
      s.kernel.world.resources.find container resource = .ok r →
      ∃ spec, (container, spec) ∈ model.countedResources ∧ spec.resource = resource := by
    intro container resource r hr
    have hsetup := hstart (container, resource)
    have hentered := Resources.ofContainers_find hrs (container, resource)
    cases hdescribed : Resources.described model.containers (container, resource) with
    | none =>
      rw [hdescribed] at hentered
      obtain ⟨e, he⟩ := hentered
      simp [hr, he, Except.toOption] at hsetup
    | some spec => exact ⟨spec, SystemModel.described_eq_some_iff.mp hdescribed⟩
  have hperm : s.kernel.world.resources.reported.Perm
      (model.countedResources.map fun p => (p.1, p.2.resource)) := by
    refine (List.perm_ext_iff_of_nodup (Resources.reported_nodup hordered)
      model.countedResources_nodup).mpr fun key => ?_
    rw [Resources.mem_reported hordered, List.mem_map]
    constructor
    · rintro ⟨r, hr⟩
      obtain ⟨spec, hmem, hresource⟩ := honly _ _ r hr
      exact ⟨_, hmem, Prod.ext rfl hresource⟩
    · rintro ⟨p, hp, rfl⟩
      obtain ⟨r, hr⟩ := hfound p hp
      exact ⟨r, hr.found⟩
  have hlength : s.kernel.world.resources.statistics.length = model.countedResources.length := by
    simpa [Resources.reported] using hperm.length_eq
  refine ⟨hfound, honly, hperm, Resources.reported_nodup hordered, ?_, ?_, ?_⟩
  · rw [hlength]
    exact ⟨model.countedResources_sublist.eq_of_length, congrArg List.length⟩
  · intro id service behavior
    rw [← h.model_eq]
    exact Deployment.providedService_eq_ok_iff
  · exact fun distinct => ⟨distinct.resources_count, distinct.services_count⟩

/-- A container and a component that are declared twice, with a resource and a service that the latter
declaration of each has twice: of four resources one is simulated, and of three services one is
provided. -/
theorem declarations_found_shadowed :
    ∃ (model : SystemModel) (s : Simulation),
      Chronicle .default model (⟨(), fun _ _ _ _ => ()⟩ : Observer Unit) s () ∧
      model.declaredResources.map (fun p => (p.1, p.2.resource, p.2.servers)) =
        [("server", "CPU", 1), ("server", "HDD", 1), ("server", "HDD", 2), ("server", "HDD", 3)] ∧
      model.countedResources.map (fun p => (p.1, p.2.resource, p.2.servers)) =
        [("server", "HDD", 3)] ∧
      model.declaredServices.map (fun p => (p.1, p.2.service, p.2.behavior.name)) =
        [("app-1", "old", "old"), ("app-1", "run", "first"), ("app-1", "run", "second")] ∧
      model.countedServices.map (fun p => (p.1, p.2.service, p.2.behavior.name)) =
        [("app-1", "run", "first")] ∧
      s.Finds model := by
  let chain (name : String) : Behavior :=
    ⟨name, [⟨"begin", "", some "end", .start⟩, ⟨"end", "", none, .stop⟩]⟩
  let model : SystemModel := ⟨"",
    [⟨"App", "", [⟨"old", chain "old"⟩]⟩,
      ⟨"App", "", [⟨"run", chain "first"⟩, ⟨"run", chain "second"⟩]⟩],
    [⟨"app-1", "", "App"⟩], [],
    [⟨"server", "", [⟨"CPU", 1, 1, .fcfs⟩, ⟨"HDD", 1, 1, .fcfs⟩]⟩,
      ⟨"server", "", [⟨"HDD", 1, 2, .fcfs⟩, ⟨"HDD", 2, 3, .fcfs⟩]⟩],
    [⟨"app-1", "server"⟩], []⟩
  have haccepted : (ofModel .default model).toOption.isSome = true := by decide +kernel
  cases hmodel : ofModel .default model with
  | error e =>
    rw [hmodel] at haccepted
    cases haccepted
  | ok s =>
    have begun : Chronicle .default model (⟨(), fun _ _ _ _ => ()⟩ : Observer Unit) s () :=
      .begins hmodel
    exact ⟨model, s, begun, by decide, by decide, by decide, by decide, declarations_found begun⟩

end Simulation

end ServiceSim

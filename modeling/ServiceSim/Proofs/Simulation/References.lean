import ServiceSim.Proofs.Interpreter.References
import ServiceSim.Proofs.Simulation.Chronicle

/-!
# References never dangle

The references of a model are checked once, on the lists in which it declares its contexts,
components and containers.  A run looks them up elsewhere: contexts and components by their
identifiers, of which the latest counts, and containers among the simulated resources.  Nevertheless
no look-up at run time meets a reference to something that is not declared
(`references_never_dangle`).
-/

namespace ServiceSim.Simulation

variable {Log : Type} {config : SimulationConfig} {model : SystemModel} {o : Observer Log}
  {s : Simulation} {l : Log}

/-- **No reference dangles in a simulation.** -/
structure Resolves (s : Simulation) : Prop where
  /-- Every context in which a process works is found, and so is its component. -/
  contexts : ∀ p ∈ s.kernel.processes, ∀ id ∈ p.2.contexts, ∃ context component,
    s.deployment.context id = .ok context ∧ context.id = id ∧
      s.deployment.component context.component = .ok component
  /-- The next step of the process that runs does not end with a dangling reference. -/
  ends : ∀ id a env c e, s.kernel.running = some (id, a) →
    a.advance s.deployment s.kernel.now id s.kernel.world = .ends env c → c.result = .error e →
    e.isDangling = false
  /-- The demand that it issues is not refused because its container is not simulated. -/
  demands : ∀ id a container resource amount e, s.kernel.running = some (id, a) →
    a.demanded s.kernel.world = some (container, resource, amount) →
    s.kernel.world.resources.issue s.kernel.now id container resource amount = .error e →
    ∀ other, e ≠ .unknownContainer other
  /-- No request has failed with a dangling reference. -/
  completions : ∀ p ∈ s.kernel.world.completions, ∀ e, p.2.result = .error e → e.isDangling = false
  /-- No failure that is to be collected tells of a dangling reference. -/
  failures : ∀ owner, ∀ e ∈ (s.kernel.world.barrier owner).failures, e.isDangling = false
  /-- No demand has been refused because its container is not simulated. -/
  journal : ∀ event ∈ s.kernel.world.journal, event.isDangling = false

/-- A process issues demands on declared containers. -/
lemma demanded_declared {d : Deployment} {a : Activity} {env : Environment}
    (h : a.IsAnchored d) {container : ContainerId} {resource : String} {amount : Float}
    (hdemanded : a.demanded env = some (container, resource, amount)) :
    d.model.hasContainer container = true := by
  rw [Activity.demanded] at hdemanded
  split at hdemanded
  next action loaded next demands rest htasks =>
    have hloaded := h.loads (.load action loaded (next :: demands))
      (htasks ▸ List.mem_cons_self) loaded rfl
    split at hdemanded
    · cases hdemanded
    · split at hdemanded
      · cases hdemanded
      · injection hdemanded with hdemanded
        injection hdemanded with hcontainer
        exact hcontainer ▸ hloaded
  · cases hdemanded

lemma resolves_of_anchored (h : s.kernel.Anchored s.deployment) : s.Resolves := by
  refine ⟨fun p hp id hid => ?_, ?_, ?_, h.world.completions, h.world.failures, h.world.journal⟩
  · exact Deployment.context_found ((h.processes p hp).contexts id hid)
  · intro id a env c e runs hends he
    have hanchors := Activity.advance_anchors s.deployment s.kernel.now id
      (h.processes _ (Kernel.running_mem runs)) h.world
    rw [hends] at hanchors
    exact hanchors.2 e he
  · intro id a container resource amount e runs hdemanded hissue
    have hdeclared := demanded_declared (h.processes _ (Kernel.running_mem runs)) hdemanded
    exact Resources.issue_refused (h.world.simulated container hdeclared) hissue

/-- Whatever happens to a simulation, its references stay declared. -/
lemma Chronicle.anchored (h : Chronicle config model o s l) : s.kernel.Anchored s.deployment := by
  induction h with
  | @begins s hmodel =>
    obtain ⟨resources, hresources, hdeployment, -, -, -, hkernel⟩ := ofModel_ok hmodel
    rw [hkernel]
    refine Kernel.initial_anchored ⟨fun container hcontainer => ?_, ?_, by simp [Environment.initial],
      by simp [Environment.initial]⟩
    · rw [hdeployment] at hcontainer
      obtain ⟨c, hc, hid⟩ := List.any_eq_true.mp hcontainer
      exact beq_iff_eq.mp hid ▸ Resources.ofContainers_simulates hresources hc
    · intro owner
      simp [Environment.barrier, Environment.initial, Barrier.new]
  | submits _ hsubmit ih =>
    obtain ⟨behavior, hprovided, -, rfl⟩ := submit_ok hsubmit
    refine Kernel.spawn_anchored ih ⟨?_, ?_⟩
    · intro context hcontext
      rw [List.mem_singleton.mp hcontext]
      exact Deployment.providedService_declared hprovided
    · simp [Activity.ofRequest, Task.container?]
  | goes _ hstep ih => exact Kernel.step_anchored ih hstep
  | rests _ hstep ih => exact (Kernel.step_ends ih.order hstep).1.anchored ih
  | notes event _ ih => exact Kernel.mapWorld_anchored ih (ih.world.note event)
  | reconfigures reconfigurator _ ih =>
    exact Kernel.mapWorld_anchored (f := fun env => { env with reconfigurator := reconfigurator }) ih
      (ih.world.of_calm ⟨⟨rfl, rfl, rfl⟩, rfl⟩)
  | reports _ ih => exact ih

/-- **References never dangle.**  Whatever requests are submitted to a simulation and however far its
runs have come: no process, be it that of a request or forked at any depth, ends with an error that
tells of a context or component that is not declared, and no demand is refused because its container
is not simulated. -/
theorem references_never_dangle (h : Chronicle config model o s l) : s.Resolves :=
  resolves_of_anchored h.anchored

/-- Contexts, components, containers and connectors that are declared twice.  One request calls a
service that forks; of what it forks, one process asks for a resource that its container lacks, and
the other is still served when the run stops.  Another request fails at a role that is not
connected. -/
theorem references_never_dangle_redeclared :
    ∃ (model : SystemModel) (s : Simulation),
      Chronicle ⟨42, some 1, false⟩ model (⟨(), fun _ _ _ _ => ()⟩ : Observer Unit) s () ∧
      s.kernel.processes.length = 2 ∧ s.kernel.world.journal.length = 3 ∧
      s.kernel.world.completions.length = 1 ∧ s.Resolves := by
  let seek : Behavior := ⟨"seek", [⟨"k0", "", some "k1", .start⟩,
    ⟨"k1", "", some "k2", .internal [⟨"disk", ⟨"2", .literal (.int 2)⟩⟩]⟩, ⟨"k2", "", none, .stop⟩]⟩
  let work : Behavior := ⟨"work", [⟨"w0", "", some "w1", .start⟩,
    ⟨"w1", "", some "w2", .internal [⟨"cpu", ⟨"2", .literal (.int 2)⟩⟩]⟩, ⟨"w2", "", none, .stop⟩]⟩
  let back : Behavior := ⟨"back", [⟨"b0", "", some "b1", .start⟩,
    ⟨"b1", "", some "b2", .fork [seek] [work]⟩, ⟨"b2", "", none, .stop⟩]⟩
  let front : Behavior := ⟨"front", [⟨"f0", "", some "f1", .start⟩,
    ⟨"f1", "", some "f2", .externalCall ⟨"next", "serve", [], []⟩⟩, ⟨"f2", "", none, .stop⟩]⟩
  let model : SystemModel := ⟨"",
    [⟨"Front", "", []⟩, ⟨"Front", "", [⟨"serve", front⟩]⟩, ⟨"Back", "", [⟨"serve", back⟩]⟩],
    [⟨"A", "", "Back"⟩, ⟨"A", "", "Front"⟩, ⟨"B", "", "Front"⟩, ⟨"B", "", "Back"⟩,
      ⟨"C", "", "Front"⟩],
    [⟨"A", "next", "A"⟩, ⟨"A", "next", "B"⟩],
    [⟨"host", "", [⟨"disk", 1, 1, .fcfs⟩]⟩, ⟨"host", "", [⟨"cpu", 1, 1, .fcfs⟩]⟩],
    [⟨"B", "host"⟩], []⟩
  let specs : List RequestSpec :=
    [⟨"A", "serve", [], .ofSeconds 0⟩, ⟨"C", "serve", [], .ofSeconds 0⟩]
  have hcounts : ((ofModel ⟨42, some 1, false⟩ model).toOption.bind fun s₀ =>
      (submitAll specs s₀).toOption.bind fun s => (s.run 300).map fun returned =>
        (returned.2.kernel.processes.length, returned.2.kernel.world.journal.length,
          returned.2.kernel.world.completions.length)) = some (2, 3, 1) := by decide +kernel
  obtain ⟨s₀, s, report, s', hmodel, hsubmit, hrun, hvalues⟩ := exists_run hcounts
  have hchronicle := ((Chronicle.begins (o := ⟨(), fun _ _ _ _ => ()⟩) hmodel).submitAll hsubmit).run
    hrun
  simp only [Prod.mk.injEq] at hvalues
  exact ⟨model, s', hchronicle, hvalues.1, hvalues.2.1, hvalues.2.2,
    references_never_dangle hchronicle⟩

end ServiceSim.Simulation

import ServiceSim.Simulation.Basic
import ServiceSim.Proofs.Interpreter.Queues

/-!
# Submitting several requests

Requests are submitted to a simulation one after the other.  Each of them adds a process that waits
for the arrival, which is not before the current time.  A run is then a run of the kernel, with a few
events logged before and after it (`run_eq`, `run_ok`).
-/

namespace ServiceSim.Simulation

/-- Submits requests, in order. -/
def submitAll : List RequestSpec → Simulation → Except SimulationError Simulation
  | [], s => .ok s
  | spec :: rest, s =>
    match s.submit spec with
    | .error e => .error e
    | .ok (_, s) => submitAll rest s

variable {config : SimulationConfig} {model : SystemModel} {s s' : Simulation} {spec : RequestSpec}
  {request : PendingRequest}

/-- What submitting a request adds to a simulation. -/
lemma submit_ok (h : s.submit spec = .ok (request, s')) :
    ∃ behavior, s.deployment.providedService spec.entry spec.service = .ok behavior ∧
      request = ⟨s.submitted, s.kernel.spawned, spec.entry, spec.service,
        spec.arrival.later s.kernel.now⟩ ∧
      s' = { s with
        kernel := s.kernel.spawn (Activity.ofRequest s.submitted spec.entry
          (spec.arrival.later s.kernel.now) spec.inputs behavior)
        pending := s.pending ++ [request]
        submitted := s.submitted + 1 } := by
  simp only [submit] at h
  split at h
  · cases h
  next behavior hprovided =>
    injection h with h
    injection h with hrequest hs
    exact ⟨behavior, hprovided, hrequest.symm, by rw [← hs, ← hrequest]⟩

/-- What holds of a simulation to which some requests have been submitted holds after all have. -/
lemma submitAll_induction {P : List RequestSpec → Simulation → Prop} {specs : List RequestSpec}
    (start : P [] s)
    (submits : ∀ before spec request s s', spec ∈ specs → P before s →
      s.submit spec = .ok (request, s') → P (before ++ [spec]) s')
    (h : submitAll specs s = .ok s') : P specs s' := by
  have hall : ∀ rest before s, (∀ spec ∈ rest, spec ∈ specs) → P before s →
      submitAll rest s = .ok s' → P (before ++ rest) s' := by
    intro rest
    induction rest with
    | nil =>
      intro before s _ hs h
      injection h with h
      rw [List.append_nil, ← h]
      exact hs
    | cons spec rest ih =>
      intro before s hspecs hs h
      rw [submitAll] at h
      split at h
      · cases h
      next request s₁ hsubmit =>
        have hnext := submits before spec request s s₁ (hspecs spec List.mem_cons_self) hs hsubmit
        have := ih (before ++ [spec]) s₁
          (fun spec' h' => hspecs spec' (List.mem_cons_of_mem _ h')) hnext h
        rwa [List.append_assoc] at this
  exact hall specs [] s (fun _ h => h) start h

/-- A simulation of a model begins without processes at time zero. -/
lemma ofModel_ok (h : ofModel config model = .ok s) :
    ∃ resources, Resources.ofContainers model.containers = .ok resources ∧
      s.deployment.model = model ∧ s.config = config ∧ s.pending = [] ∧ s.submitted = 0 ∧
      s.kernel = Kernel.initial (Environment.initial (Source.seeded config.seed) resources) := by
  simp only [ofModel] at h
  split at h
  · cases h
  next resources hresources =>
    split at h
    · cases h
    next deployment hdeployment =>
      injection h with h
      subst h
      refine ⟨resources, hresources, ?_, rfl, rfl, rfl, rfl⟩
      simp only [Deployment.ofModel] at hdeployment
      split at hdeployment
      · injection hdeployment with hdeployment
        rw [← hdeployment]
      · cases hdeployment

/-- Nobody is in the line of a resource yet. -/
lemma ofModel_queued (h : ofModel config model = .ok s) : s.kernel.Queued := by
  obtain ⟨resources, hresources, -, -, -, -, hkernel⟩ := ofModel_ok h
  rw [hkernel]
  refine Kernel.initial_queued _ rfl fun key t ht => ?_
  obtain ⟨hserving, hwaiting, hcount, -⟩ := Resources.ofContainers_line hresources ht
  exact ⟨hcount, hserving, hwaiting⟩

/-! ## Runs -/

/-- The kernel when a run begins. -/
def started (s : Simulation) : Kernel Environment Activity :=
  s.kernel.mapWorld (·.note (.runStarted s.pending.length s.config.seed))

/-- A run of a simulation is a run of its kernel. -/
lemma run_eq (s : Simulation) (fuel : Nat) : s.run fuel =
    (s.started.run (Activity.program s.deployment) (s.config.stopTime.map .ofSeconds) fuel).map
      fun kernel => ({ s with kernel := kernel }.report,
        { noteReport { s with kernel := kernel }.report { s with kernel := kernel } with
          pending := [] }) := by
  simp only [run, note, mapEnvironment, started]
  split
  next hrun => rw [hrun, Option.map_none]
  next kernel hrun => rw [hrun, Option.map_some]

/-- Logging a report changes nothing else. -/
lemma noteReport_spec (report : SimulationReport) (s : Simulation) :
    ∃ env, s.kernel.world.Steady env ∧
      s.noteReport report = { s with kernel := { s.kernel with world := env } } := by
  have hnotes : ∀ (events : List LogEvent) (s : Simulation), ∃ env, s.kernel.world.Steady env ∧
      events.foldl (fun s event => s.note event) s =
        { s with kernel := { s.kernel with world := env } } := by
    intro events
    induction events with
    | nil => exact fun s => ⟨_, .refl _, rfl⟩
    | cons event events ih =>
      intro s
      obtain ⟨env, hsteady, hs⟩ := ih (s.note event)
      exact ⟨env, ((Environment.Steady.refl _).note event).trans hsteady, hs⟩
  obtain ⟨env, hsteady, hs⟩ := hnotes
    (report.requests.filterMap fun o => o.fate.event? o.request.number) s
  exact ⟨_, hsteady.note _, by rw [noteReport, hs]; rfl⟩

/-- What a run that returns has reported, and what it has left. -/
lemma run_ok {fuel : Nat} {report : SimulationReport} (h : s.run fuel = some (report, s')) :
    ∃ kernel env, kernel.world.Steady env ∧
      s.started.run (Activity.program s.deployment) (s.config.stopTime.map .ofSeconds) fuel =
        some kernel ∧
      report = { s with kernel := kernel }.report ∧
      s' = { s with kernel := { kernel with world := env }, pending := [] } := by
  rw [run_eq, Option.map_eq_some_iff] at h
  obtain ⟨kernel, hkernel, hreturned⟩ := h
  injection hreturned with hreport hs'
  obtain ⟨env, hsteady, hnoted⟩ := noteReport_spec report { s with kernel := kernel }
  rw [hreport, hnoted] at hs'
  exact ⟨kernel, env, hsteady, hkernel, hreport.symm, hs'.symm⟩

/-- Where something can be computed of a run of some requests, there is such a run. -/
lemma exists_run {α : Type} {specs : List RequestSpec} {fuel : Nat}
    {f : Simulation → SimulationReport × Simulation → α} {value : α}
    (h : ((ofModel config model).toOption.bind fun s₀ => (submitAll specs s₀).toOption.bind fun s =>
      (s.run fuel).map (f s)) = some value) :
    ∃ s₀ s report s', ofModel config model = .ok s₀ ∧ submitAll specs s₀ = .ok s ∧
      s.run fuel = some (report, s') ∧ f s (report, s') = value := by
  simp only [Option.bind_eq_some_iff, Option.map_eq_some_iff] at h
  obtain ⟨s₀, hmodel, s, hsubmit, ⟨report, s'⟩, hrun, hvalue⟩ := h
  exact ⟨s₀, s, report, s', ok_of_toOption hmodel, ok_of_toOption hsubmit, hrun, hvalue⟩

end ServiceSim.Simulation

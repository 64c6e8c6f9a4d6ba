import ServiceSim.Proofs.Queueing.Timetable
import ServiceSim.Proofs.Simulation.Submission

/-!
# Runs of one queue follow its schedule

Requests that issue one demand each, all of them to one resource that serves in order, are the jobs
of a queue.  They are submitted to a fresh simulation that has no time to stop at.  Its first run
returns, and every request completes at the time that the schedule of the queue gives its job
(`requests_complete_as_scheduled`).
-/

namespace ServiceSim

open Activity

namespace Resources

/-- A resource that a model describes as serving in order has its rate and its servers. -/
lemma described_line {containers : List ResourceContainer} {rs : Resources}
    (h : ofContainers containers = .ok rs) {key : ResourceKey} {spec : ProcessingResource}
    (described : described containers key = some spec) (fcfs : spec.scheduling = .fcfs) :
    rs.rate? key = some spec.processingRate ∧
      ∃ s, rs.line key = some s ∧ s.count = spec.servers := by
  have hfind := ofContainers_find h key
  rw [described] at hfind
  obtain ⟨r, hr, hfound⟩ := hfind
  obtain ⟨hrate, -, ⟨-, -, hservers⟩ | ⟨hdelay, -⟩⟩ := ofSpec_ok hr
  · refine ⟨?_, Servers.idle spec.servers, ?_, rfl⟩
    · simp only [rate?, hfound, hrate]
    · simp only [line, hfound, hservers]
  · rw [fcfs] at hdelay
    cases hdelay

end Resources

namespace Simulation

variable {config : SimulationConfig} {model : SystemModel} {s₀ s s₁ s₂ : Simulation}
  {specs : List RequestSpec} {spec : RequestSpec} {request : PendingRequest}

/-- A simulation before its first run, to which the requests of a workload have been submitted. -/
structure Loaded (s₀ : Simulation) (key : ResourceKey) (amount : RequestSpec → Float)
    (specs : List RequestSpec) (s : Simulation) : Prop where
  deployment : s.deployment = s₀.deployment
  config : s.config = s₀.config
  now : s.kernel.now = .zero
  world : s.kernel.world = s₀.kernel.world
  blocked : s.kernel.blocked = []
  spawned : s.kernel.spawned = specs.length
  submitted : s.submitted = specs.length
  queued : s.kernel.Queued
  accounted : s.kernel.Accounted specs.length
  processes : ∃ processes, s.kernel.agenda = Kernel.appointed .zero processes ∧
    processes.map Prod.fst = List.range specs.length ∧ ∀ p ∈ processes, p.2.role = .request p.1 ∧
      ∃ spec, specs[p.1]? = some spec ∧ p.2.Pending s₀.deployment key (amount spec) spec
  pending : s.pending.map PendingRequest.number = List.range specs.length

lemma loaded_start (hmodel : ofModel config model = .ok s₀) (key : ResourceKey)
    (amount : RequestSpec → Float) : Loaded s₀ key amount [] s₀ := by
  obtain ⟨resources, hresources, -, -, hpending, hsubmitted, hkernel⟩ := ofModel_ok hmodel
  refine ⟨rfl, rfl, by rw [hkernel]; rfl, rfl, by rw [hkernel]; rfl, by rw [hkernel]; rfl, hsubmitted,
    ?_, by simp [Kernel.Accounted], ⟨[], by rw [hkernel]; rfl, rfl, by simp⟩, by rw [hpending]; rfl⟩
  exact ofModel_queued hmodel

/-- A request that runs an errand is a job more. -/
lemma Loaded.submit {key : ResourceKey} {amount : RequestSpec → Float}
    (h : Loaded s₀ key amount specs s) (errand : spec.IsErrand s₀.deployment key (amount spec))
    (hsubmit : s.submit spec = .ok (request, s₁)) : Loaded s₀ key amount (specs ++ [spec]) s₁ := by
  obtain ⟨behavior, hprovided, hrequest, hs₁⟩ := submit_ok hsubmit
  obtain ⟨behavior', demand, errand⟩ := errand
  have hbehavior : behavior = behavior' := by
    rw [h.deployment, errand.provided] at hprovided
    injection hprovided with hprovided
    exact hprovided.symm
  subst hbehavior
  rw [h.now, h.submitted] at hrequest hs₁
  let a := ofRequest specs.length spec.entry (spec.arrival.later .zero) spec.inputs behavior
  have hawake : a.Awake := ofRequest_awake _ _ _ _ _
  have hlength : (specs ++ [spec]).length = specs.length + 1 := List.length_append
  obtain ⟨processes, hagenda, hnumbers, hprocesses⟩ := h.processes
  subst hs₁
  refine ⟨h.deployment, h.config, h.now, h.world, h.blocked, ?_, hlength.symm, ?_, ?_,
    ⟨processes ++ [(specs.length, a)], ?_, ?_, ?_⟩, ?_⟩
  · rw [hlength, ← h.spawned]
    rfl
  · exact Kernel.spawn_queued h.queued hawake rfl
  · rw [hlength]
    exact Kernel.spawn_accounted h.accounted rfl
  · -- Nobody is parked yet, so who enters stands behind all others.
    have hparked : s.kernel.parked = [] := by
      rw [List.eq_nil_iff_forall_not_mem]
      intro w hw
      have hlater := h.queued.joined.order.later w hw
      have hmem : w.appointment ∈ s.kernel.agenda :=
        List.mem_append_right _ (List.mem_append_right _ (List.mem_map_of_mem hw))
      rw [hagenda] at hmem
      obtain ⟨p, -, hp⟩ := List.mem_map.mp hmem
      have hdue : w.due = .zero := congrArg Appointment.time hp.symm
      rw [h.now, hdue] at hlater
      exact lt_irrefl _ hlater
    simp only [Kernel.agenda, Kernel.others, Kernel.appointed, Kernel.spawn, hparked, h.now,
      List.map_nil, List.append_nil, List.map_append] at hagenda ⊢
    rw [← hagenda, h.spawned, List.append_assoc, List.append_assoc]
  · rw [List.map_append, hnumbers, hlength, List.range_succ]
    rfl
  · intro p hp
    rcases List.mem_append.mp hp with hp | hp
    · obtain ⟨hrole, spec', hspec', hpending⟩ := hprocesses p hp
      refine ⟨hrole, spec', ?_, hpending⟩
      rw [List.getElem?_append_left (List.getElem?_eq_some_iff.mp hspec').1]
      exact hspec'
    · rw [List.mem_singleton.mp hp]
      exact ⟨rfl, spec, List.getElem?_concat_length,
        ⟨⟨behavior, demand, errand, rfl⟩, rfl, rfl⟩⟩
  · rw [List.map_append, h.pending, hrequest, hlength, List.range_succ]
    rfl

/-- Requests that run errands make a workload, which is scheduled when the first run begins. -/
lemma Loaded.scheduled (hmodel : ofModel config model = .ok s₀) {w : Workload}
    {resource : ProcessingResource}
    (described : Resources.described model.containers w.key = some resource)
    (fcfs : resource.scheduling = .fcfs) (servers : w.servers = resource.servers)
    (rate : w.rate = resource.processingRate) (deployment : w.deployment = s₀.deployment)
    (h : Loaded s₀ w.key w.amount w.specs s) : s.started.Scheduled w := by
  obtain ⟨resources, hresources, -, -, -, -, hkernel⟩ := ofModel_ok hmodel
  obtain ⟨hrate, hline⟩ := Resources.described_line hresources described fcfs
  obtain ⟨processes, hagenda, hnumbers, hprocesses⟩ := h.processes
  have hsteady := (Environment.Steady.refl s.kernel.world).note
    (.runStarted s.pending.length s.config.seed)
  have hworld : s.kernel.world = Environment.initial (Source.seeded config.seed) resources := by
    rw [h.world, hkernel]
    rfl
  refine Kernel.scheduled_start (Kernel.mapWorld_queued h.queued hsteady) h.accounted h.now
    h.blocked ?_ ?_ ?_ hagenda hnumbers (deployment ▸ hprocesses)
  · change s.kernel.world.completions = []
    rw [hworld]
    rfl
  · change s.kernel.world.resources.rate? w.key = _
    rw [hworld, rate]
    exact hrate
  · change ∃ t, s.kernel.world.resources.line w.key = _ ∧ _
    rw [hworld, servers]
    exact hline

/-- The requests of a report are those that have been submitted, in order. -/
lemma Loaded.reported {key : ResourceKey} {amount : RequestSpec → Float}
    (h : Loaded s₀ key amount specs s) (kernel : Kernel Environment Activity) :
    { s with kernel := kernel }.report.requests.length = specs.length ∧
    ∀ n outcome, { s with kernel := kernel }.report.requests[n]? = some outcome →
      n < specs.length ∧ ∀ c, kernel.world.completion? n = some c →
        outcome.fate = .ofCompletion c := by
  have hlength : s.pending.length = specs.length := by
    have := congrArg List.length h.pending
    rwa [List.length_map, List.length_range] at this
  refine ⟨by rw [Simulation.report, List.length_map, hlength], ?_⟩
  intro n outcome houtcome
  simp only [Simulation.report, List.getElem?_map, Option.map_eq_some_iff] at houtcome
  obtain ⟨request, hrequest, rfl⟩ := houtcome
  have hn : n < specs.length := hlength ▸ (List.getElem?_eq_some_iff.mp hrequest).1
  have hnumber : (s.pending.map PendingRequest.number)[n]? = some request.number := by
    rw [List.getElem?_map, hrequest]
    rfl
  rw [h.pending, List.getElem?_range hn] at hnumber
  injection hnumber with hnumber
  refine ⟨hn, fun c hc => ?_⟩
  rw [hnumber] at hc
  simp only [outcome, Kernel.fate, hc]

/-- **Requests complete as scheduled.**  Requests that issue one demand each, to one resource that
serves in order, are submitted to a fresh simulation without a time to stop at.  Its first run
returns.  However long it takes, every request has completed, at the time at which the schedule of
the queue completes its job: jobs are taken in the order of arrivals, each by the server that becomes
free first. -/
theorem requests_complete_as_scheduled (hmodel : ofModel config model = .ok s₀)
    (unlimited : config.stopTime = none) {key : ResourceKey} {resource : ProcessingResource}
    (described : Resources.described model.containers key = some resource)
    (fcfs : resource.scheduling = .fcfs) {amount : RequestSpec → Float}
    (errands : ∀ spec ∈ specs, spec.IsErrand s₀.deployment key (amount spec))
    (arrivals : ∀ spec ∈ specs, spec.arrival.seconds.isNaN = false)
    (hsubmit : submitAll specs s₀ = .ok s₁) :
    (∃ fuel report s₂, s₁.run fuel = some (report, s₂)) ∧
    ∀ fuel report s₂, s₁.run fuel = some (report, s₂) →
      report.requests.length = specs.length ∧
      ∀ n outcome, report.requests[n]? = some outcome → outcome.fate.isCompleted = true ∧
        outcome.fate.time? = (Schedule.completions resource.servers (specs.map fun spec =>
          ⟨spec.arrival.later .zero, amount spec / resource.processingRate⟩)).lookup n := by
  have h : Loaded s₀ key amount specs s₁ := by
    refine submitAll_induction (P := Loaded s₀ key amount) (loaded_start hmodel key amount) ?_ hsubmit
    intro before spec request s s' hspec h hsubmit
    exact h.submit (errands spec hspec) hsubmit
  let w : Workload := ⟨s₀.deployment, key, resource.servers, resource.processingRate, amount, specs,
    errands, arrivals⟩
  have hscheduled : s₁.started.Scheduled w := Loaded.scheduled hmodel described fcfs rfl rfl rfl h
  have hstop : s₁.config.stopTime = none := by
    obtain ⟨-, -, -, hconfig, -⟩ := ofModel_ok hmodel
    rw [h.config, hconfig, unlimited]
  have hrun := run_eq s₁
  rw [hstop, Option.map_none, h.deployment] at hrun
  constructor
  · have hsome : ∃ fuel kernel, s₁.started.run (program w.deployment) none fuel = some kernel :=
      hscheduled.run_returns
    obtain ⟨fuel, kernel, hreturns⟩ := hsome
    exact ⟨fuel, _, _, by rw [hrun, hreturns]; rfl⟩
  · intro fuel report s₂ hreturns
    rw [hrun, Option.map_eq_some_iff] at hreturns
    obtain ⟨kernel, hkernel, hreport⟩ := hreturns
    injection hreport with hreport _
    obtain ⟨hlength, houtcomes⟩ := h.reported kernel
    rw [← hreport]
    refine ⟨hlength, fun n outcome houtcome => ?_⟩
    obtain ⟨hn, hfate⟩ := houtcomes n outcome houtcome
    obtain ⟨c, frame, hc, hframe, hmem⟩ := hscheduled.run_completes hkernel hn
    rw [hfate c hc]
    simp only [Fate.ofCompletion, hframe]
    exact ⟨rfl, (Schedule.lookup_completions hmem).symm⟩

/-- Two servers and four requests, three of which arrive at once.  The last one arrives when the
first one leaves. -/
theorem requests_complete_as_scheduled_contending :
    ∃ (model : SystemModel) (resource : ProcessingResource) (amount : RequestSpec → Float)
      (specs : List RequestSpec) (s₀ s₁ : Simulation),
      ofModel .default model = .ok s₀ ∧
      Resources.described model.containers ("host", "cpu") = some resource ∧
      resource.scheduling = .fcfs ∧ resource.servers = 2 ∧ specs.length = 4 ∧
      (∀ spec ∈ specs, spec.IsErrand s₀.deployment ("host", "cpu") (amount spec)) ∧
      (∀ spec ∈ specs, spec.arrival.seconds.isNaN = false) ∧ submitAll specs s₀ = .ok s₁ ∧
      (∃ fuel report s₂, s₁.run fuel = some (report, s₂)) ∧
      ∀ fuel report s₂, s₁.run fuel = some (report, s₂) →
        report.requests.length = specs.length ∧
        ∀ n outcome, report.requests[n]? = some outcome → outcome.fate.isCompleted = true ∧
          outcome.fate.time? = (Schedule.completions resource.servers (specs.map fun spec =>
            ⟨spec.arrival.later .zero, amount spec / resource.processingRate⟩)).lookup n := by
  let demand (amount : Float) : ResourceDemand := ⟨"cpu", ⟨"", .literal (.double amount)⟩⟩
  let work (amount : Float) : Behavior := ⟨"work", [⟨"w0", "", some "w1", .start⟩,
    ⟨"w1", "", some "w2", .internal [demand amount]⟩, ⟨"w2", "", none, .stop⟩]⟩
  let resource : ProcessingResource := ⟨"cpu", 2, 2, .fcfs⟩
  let model : SystemModel := ⟨"", [⟨"C", "", [⟨"short", work 2⟩, ⟨"long", work 6⟩]⟩],
    [⟨"A", "", "C"⟩], [], [⟨"host", "", [resource]⟩], [⟨"A", "host"⟩], []⟩
  let short (arrival : Float) : RequestSpec := ⟨"A", "short", [], .ofSeconds arrival⟩
  let long (arrival : Float) : RequestSpec := ⟨"A", "long", [], .ofSeconds arrival⟩
  let specs : List RequestSpec := [short 0, long 0, short 0, long 1]
  let amount (spec : RequestSpec) : Float := if spec.service = "long" then 6 else 2
  have hstarts : ((ofModel .default model).toOption.bind fun s₀ =>
      (submitAll specs s₀).toOption).isSome = true := by decide +kernel
  have arrivals : ∀ spec ∈ specs, spec.arrival.seconds.isNaN = false := by decide +kernel
  cases hmodel : ofModel .default model with
  | error e =>
    rw [hmodel] at hstarts
    cases hstarts
  | ok s₀ =>
    rw [hmodel] at hstarts
    have hdeployment := (ofModel_ok hmodel).choose_spec.2.1
    have errands : ∀ spec ∈ specs, spec.IsErrand s₀.deployment ("host", "cpu") (amount spec) := by
      have hissues : ∀ (spec : RequestSpec) (amount : Float), (spec.service = "short" ∧ amount = 2 ∨
          spec.service = "long" ∧ amount = 6) → spec.entry = "A" → spec.inputs = [] →
          spec.IsErrand s₀.deployment ("host", "cpu") amount := by
        intro spec amount hservice hentry hinputs
        refine ⟨work amount, demand amount, ?_, .idle (.inl rfl) (.issue rfl fun x hx => ?_), ?_, rfl,
          ?_, fun context root source => ?_, fun context root source source' => rfl⟩
        · rw [hentry]
          simp only [Deployment.providedService, Deployment.context, Deployment.component, hdeployment]
          rcases hservice with ⟨hservice, rfl⟩ | ⟨hservice, rfl⟩ <;> rw [hservice] <;> rfl
        · rw [List.mem_singleton.mp hx]
          exact .inr rfl
        · rw [hentry]
          simp only [Deployment.containerOf, hdeployment]
          rfl
        · rcases hservice with ⟨-, rfl⟩ | ⟨-, rfl⟩ <;> decide +kernel
        · rw [hinputs]
          rfl
      intro spec hspec
      simp only [specs, List.mem_cons, List.not_mem_nil, or_false] at hspec
      rcases hspec with rfl | rfl | rfl | rfl
      · exact hissues _ _ (.inl ⟨rfl, rfl⟩) rfl rfl
      · exact hissues _ _ (.inr ⟨rfl, rfl⟩) rfl rfl
      · exact hissues _ _ (.inl ⟨rfl, rfl⟩) rfl rfl
      · exact hissues _ _ (.inr ⟨rfl, rfl⟩) rfl rfl
    cases hsubmit : submitAll specs s₀ with
    | error e => simp [hsubmit, Except.toOption] at hstarts
    | ok s₁ =>
      exact ⟨model, resource, amount, specs, s₀, s₁, hmodel, rfl, rfl, rfl, rfl, errands, arrivals,
        hsubmit, requests_complete_as_scheduled hmodel rfl rfl rfl errands arrivals hsubmit⟩

end Simulation

end ServiceSim

import ServiceSim.Proofs.Interpreter.Ledger
import ServiceSim.Proofs.Simulation.Chronicle

/-!
# First come, first served

`Simulation.History` has all that can happen to a simulation, from its model on: requests are
submitted, runs take one step after another, and somebody outside logs or installs something.  It
keeps the ledger of one resource along the way: a history is the chronicle of who observes this
resource (`history_iff_chronicle`).

In every state that such a history reaches, a resource that the model describes as serving in order
does so (`first_come_first_served`).
-/

namespace ServiceSim

open Activity

/-! ## Refused demands -/

namespace Activity

variable {a : Activity} {env : Environment} {container : ContainerId} {resource : String}
  {amount : Float}

/-- A refused demand is passed over. -/
lemma advance_refused (d : Deployment) (now : SimTime) (id : ProcessId)
    (hdemanded : a.demanded env = some (container, resource, amount)) {e : ResourceError}
    (hissue : env.resources.issue now id container resource amount = .error e) :
    ∃ env' b, a.advance d now id env = .goes ⟨env', [], [], .proceed b⟩ ∧
      env'.resources = env.resources := by
  simp only [demanded] at hdemanded
  split at hdemanded
  next action hosts next demands rest htasks =>
    split at hdemanded
    · cases hdemanded
    next frame hcurrent =>
      split at hdemanded
      · cases hdemanded
      next x hx =>
        injection hdemanded with htriple
        injection htriple with hhosts hpair
        injection hpair with hresource hamount
        subst hhosts hresource hamount
        cases hsample : env.sample (next.specification.evaluateDouble frame.scope) with
        | mk value env' =>
          have hsteady := Environment.sample_steady hsample
          have hvalue : value = .ok x := (Environment.sample_result hsample).symm.trans hx
          subst hvalue
          have hissue' := hissue
          rw [← hsteady.resources] at hissue'
          simp only [advance, htasks, performTask, issueNext, hcurrent, hsample, demand,
            Environment.enter, Environment.note, hissue']
          exact ⟨_, _, rfl, hsteady.resources⟩
  · cases hdemanded

end Activity

/-! ## Histories -/

/-- Who keeps the ledger of a resource. -/
def Ledger.observer (key : ResourceKey) : Observer Ledger :=
  ⟨.empty, fun _ k k' l => k.record key k' l⟩

namespace Simulation

/-- What can happen to the simulation of a model, with the ledger of a resource. -/
inductive History (config : SimulationConfig) (model : SystemModel) (key : ResourceKey) :
    Simulation → Ledger → Prop where
  | begins {s : Simulation} : ofModel config model = .ok s → History config model key s .empty
  | submits {s s' : Simulation} {l : Ledger} {spec : RequestSpec} {request : PendingRequest} :
      History config model key s l → s.submit spec = .ok (request, s') →
      History config model key s' l
  | goes {s : Simulation} {l : Ledger} {stop : Option SimTime}
      {k' : Kernel Environment Activity} : History config model key s l →
      s.kernel.step (program s.deployment) stop = .goes k' →
      History config model key { s with kernel := k' } (s.kernel.record key k' l)
  | rests {s : Simulation} {l : Ledger} {stop : Option SimTime}
      {k' : Kernel Environment Activity} : History config model key s l →
      s.kernel.step (program s.deployment) stop = .ends k' →
      History config model key { s with kernel := k' } l
  | notes {s : Simulation} {l : Ledger} (event : LogEvent) : History config model key s l →
      History config model key (s.note event) l
  | reconfigures {s : Simulation} {l : Ledger} (reconfigurator : Reconfigurator) :
      History config model key s l →
      History config model key (s.withReconfigurator reconfigurator) l
  | reports {s : Simulation} {l : Ledger} : History config model key s l →
      History config model key { s with pending := [] } l

variable {config : SimulationConfig} {model : SystemModel} {key : ResourceKey} {s s' : Simulation}
  {l : Ledger}

/-- A history is a chronicle in which the ledger of the resource is kept. -/
theorem history_iff_chronicle :
    History config model key s l ↔ Chronicle config model (Ledger.observer key) s l := by
  constructor
  · intro h
    induction h with
    | begins hmodel => exact .begins hmodel
    | submits _ hsubmit ih => exact ih.submits hsubmit
    | goes _ hstep ih => exact ih.goes hstep
    | rests _ hstep ih => exact ih.rests hstep
    | notes event _ ih => exact ih.notes event
    | reconfigures reconfigurator _ ih => exact ih.reconfigures reconfigurator
    | reports _ ih => exact ih.reports
  · intro h
    induction h with
    | begins hmodel => exact .begins hmodel
    | submits _ hsubmit ih => exact ih.submits hsubmit
    | goes _ hstep ih => exact ih.goes hstep
    | rests _ hstep ih => exact ih.rests hstep
    | notes event _ ih => exact ih.notes event
    | reconfigures reconfigurator _ ih => exact ih.reconfigures reconfigurator
    | reports _ ih => exact ih.reports

/-- A run is part of a history. -/
theorem History.run (h : History config model key s l) {fuel : Nat} {report : SimulationReport}
    (hrun : s.run fuel = some (report, s')) : ∃ l', History config model key s' l' :=
  ⟨_, history_iff_chronicle.mpr ((history_iff_chronicle.mp h).run hrun)⟩

/-! ## First come, first served -/

/-- **A resource that serves in order.**  Of `count` servers each is free or held by a process, and
no process waits while one is free.  Servers are granted in the order in which demands are issued,
every valid demand waits, is in service or has been served, and those served are counted.  Whoever
has ended holds nothing, and a refused demand changes nothing. -/
structure ServesInOrder (key : ResourceKey) (count : Nat) (d : Deployment)
    (k : Kernel Environment Activity) (l : Ledger) (r : ActiveResource) (servers : Servers) :
    Prop where
  found : k.world.resources.find key.1 key.2 = .ok r
  line : r.servers = some servers
  holders : servers.serving.Perm (k.holders key)
  conserved : servers.free + (k.holders key).length = count
  queue : servers.waiting = k.waiters key
  busy : servers.waiting ≠ [] → servers.free = 0
  fair : l.granted <+: l.issued
  distinct : l.issued.Nodup
  partition : l.issued.Perm (l.waiting ++ l.inService ++ l.served)
  waiting : l.waiting.map Ticket.process = servers.waiting
  inService : (l.inService.map Ticket.process).Perm servers.serving
  counted : r.stats.served = l.served.length
  ended : ∀ id, (∀ p ∈ k.processes, p.1 ≠ id) → id ∉ servers.serving ∧ id ∉ servers.waiting
  refused : ∀ id a container resource amount, k.running = some (id, a) →
    a.demanded k.world = some (container, resource, amount) →
    (¬ IsValidAmount amount ∨ ∃ e, k.world.resources.find container resource = .error e) →
    ∀ stop, ∃ env b, k.step (program d) stop = .goes { k with world := env, running := some (id, b) } ∧
      env.resources = k.world.resources

/-- The ledger of a history agrees with the resource. -/
lemma History.booked (h : History config model key s l) {spec : ProcessingResource}
    (described : Resources.described model.containers key = some spec)
    (fcfs : spec.scheduling = .fcfs) : s.kernel.Booked key spec.servers l := by
  induction h with
  | begins hmodel =>
    have hqueued := ofModel_queued hmodel
    obtain ⟨resources, hresources, -, -, -, -, hkernel⟩ := ofModel_ok hmodel
    rw [hkernel] at hqueued ⊢
    have hfind := Resources.ofContainers_find hresources key
    rw [described] at hfind
    obtain ⟨r, hr, hfound⟩ := hfind
    obtain ⟨-, hstats, ⟨-, -, hservers⟩ | ⟨hdelay, -⟩⟩ := Resources.ofSpec_ok hr
    · refine ⟨hqueued, Ledger.empty_sound,
        ⟨Servers.idle spec.servers, ?_, rfl, rfl, List.Perm.refl _⟩, ?_⟩
      · change resources.line key = some (Servers.idle spec.servers)
        simp only [Resources.line, hfound, hservers]
      · change resources.served key = 0
        simp only [Resources.served, hfound, hstats]
    · rw [fcfs] at hdelay
      cases hdelay
  | submits _ hsubmit ih =>
    obtain ⟨behavior, -, -, rfl⟩ := submit_ok hsubmit
    exact ih.of_resources (Kernel.spawn_queued ih.queued (ofRequest_awake _ _ _ _ _) rfl) rfl
  | goes _ hstep ih => exact Kernel.step_booked ih hstep
  | rests _ hstep ih =>
    have quiet := (Kernel.step_ends ih.queued.joined.order hstep).1
    exact ih.of_resources (quiet.queued ih.queued) quiet.resources
  | notes event _ ih =>
    exact ih.of_resources (Kernel.mapWorld_queued ih.queued ((Environment.Steady.refl _).note _)) rfl
  | reconfigures reconfigurator _ ih =>
    exact ih.of_resources (Kernel.mapWorld_queued
      (f := fun env => { env with reconfigurator := reconfigurator }) ih.queued
      ((Environment.Steady.refl _).reconfigured _)) rfl
  | reports _ ih => exact ih

/-- **First come, first served.**  In every state of every history of a simulation, a resource that
the model describes as serving in order does so, with as many servers as it is described to have. -/
theorem first_come_first_served (h : History config model key s l) {spec : ProcessingResource}
    (described : Resources.described model.containers key = some spec)
    (fcfs : spec.scheduling = .fcfs) :
    ∃ r servers, ServesInOrder key spec.servers s.deployment s.kernel l r servers := by
  have hbooked := h.booked described fcfs
  obtain ⟨servers, line, hcount, hwaiting, hserving⟩ := hbooked.line
  have hsound := hbooked.queued.sound _ _ line
  have hholders := hbooked.queued.serving _ _ line
  have hqueue := hbooked.queued.waiting _ _ line
  cases hfind : s.kernel.world.resources.find key.1 key.2 with
  | error e =>
    simp only [Resources.line, hfind] at line
    cases line
  | ok r =>
    simp only [Resources.line, hfind] at line
    have hserved := hbooked.served
    simp only [Resources.served, hfind] at hserved
    refine ⟨r, servers, hfind, line, hholders, ?_, hqueue, ?_, ?_, hbooked.sound.nodup,
      hbooked.sound.partition, hwaiting.symm, hserving.symm, hserved, ?_, ?_⟩
    · rw [← hholders.length_eq, Servers.free, ← hcount]
      exact Nat.sub_add_cancel hsound.bounded
    · intro hne
      rw [Servers.free, hsound.busy hne, Nat.sub_self]
    · rw [hbooked.sound.order]
      exact List.prefix_append _ _
    · intro id hended
      rw [hholders.mem_iff, hqueue]
      refine ⟨fun hmem => ?_, fun hmem => ?_⟩
      · obtain ⟨a, ha, -⟩ := Kernel.mem_engagedOn.mp hmem
        exact hended _ (List.mem_append_left _ ha) rfl
      · obtain ⟨a, ha, -⟩ := Kernel.mem_engagedOn.mp hmem
        exact hended _ (List.mem_append_right _ ha) rfl
    · intro id a container resource amount runs hdemanded hrefused stop
      obtain ⟨e, he⟩ := Resources.issue_error s.kernel.now id hrefused
      obtain ⟨env, b, hadvance, hresources⟩ :=
        advance_refused s.deployment s.kernel.now id hdemanded he
      refine ⟨env, b, ?_, hresources⟩
      simp only [Kernel.step, runs, program, turn, hadvance]
      rfl

/-- Two servers and four requests, when the run stops: one has been served, the next two are in
service, and the last one waits. -/
theorem first_come_first_served_contending :
    ∃ (config : SimulationConfig) (model : SystemModel) (spec : ProcessingResource) (s : Simulation)
      (l : Ledger) (r : ActiveResource) (servers : Servers),
      History config model ("host", "cpu") s l ∧
      Resources.described model.containers ("host", "cpu") = some spec ∧ spec.scheduling = .fcfs ∧
      spec.servers = 2 ∧
      ServesInOrder ("host", "cpu") spec.servers s.deployment s.kernel l r servers ∧
      l.issued.length = 4 ∧ l.served.length = 1 ∧ servers.serving.length = 2 ∧
      servers.waiting = [3] := by
  let demand (amount : Float) : ResourceDemand := ⟨"cpu", ⟨"", .literal (.double amount)⟩⟩
  let work (amount : Float) : Behavior := ⟨"work", [⟨"w0", "", some "w1", .start⟩,
    ⟨"w1", "", some "w2", .internal [demand amount]⟩, ⟨"w2", "", none, .stop⟩]⟩
  let spec : ProcessingResource := ⟨"cpu", 1, 2, .fcfs⟩
  let config : SimulationConfig := ⟨42, some 3, false⟩
  let model : SystemModel := ⟨"", [⟨"C", "", [⟨"short", work 2⟩, ⟨"long", work 6⟩]⟩],
    [⟨"A", "", "C"⟩], [], [⟨"host", "", [spec]⟩], [⟨"A", "host"⟩], []⟩
  let short : RequestSpec := ⟨"A", "short", [], .ofSeconds 0⟩
  let long : RequestSpec := ⟨"A", "long", [], .ofSeconds 0⟩
  have hreturns : ((ofModel config model).toOption.bind fun s₀ =>
      (submitAll [short, long, long, short] s₀).toOption.bind fun s => (s.run 200).map fun returned =>
        ((returned.2.kernel.world.resources.line ("host", "cpu")).map fun servers =>
          (servers.serving.length, servers.waiting),
          returned.2.kernel.world.resources.served ("host", "cpu"))) = some (some (2, [3]), 1) := by
    decide +kernel
  obtain ⟨s₀, s, report, s', hmodel, hsubmit, hrun, hvalues⟩ := exists_run hreturns
  have hhistory : History config model ("host", "cpu") s .empty :=
    submitAll_induction (P := fun _ s => History config model ("host", "cpu") s .empty)
      (.begins hmodel) (fun _ _ _ _ _ _ hbefore hsubmit => hbefore.submits hsubmit) hsubmit
  obtain ⟨l, h⟩ := hhistory.run hrun
  have described : Resources.described model.containers ("host", "cpu") = some spec := rfl
  obtain ⟨r, servers, hserves⟩ := first_come_first_served h described rfl
  simp only [Resources.line, Resources.served, hserves.found, hserves.line, Option.map_some,
    Prod.mk.injEq, Option.some.injEq] at hvalues
  obtain ⟨⟨hserving, hwaiting⟩, hserved⟩ := hvalues
  have hlengths := hserves.partition.length_eq
  have hqueue := congrArg List.length hserves.waiting
  have hbusy := hserves.inService.length_eq
  rw [List.length_map] at hqueue hbusy
  refine ⟨config, model, spec, s', l, r, servers, h, described, rfl, rfl, hserves, ?_, ?_, hserving,
    hwaiting⟩
  · rw [hlengths, List.length_append, List.length_append, hqueue, hbusy, hwaiting, hserving,
      ← hserves.counted, hserved]
    rfl
  · rw [← hserves.counted, hserved]

end Simulation

end ServiceSim

import ServiceSim.Proofs.Interpreter.ForkJoin
import ServiceSim.Proofs.Interpreter.Reports
import ServiceSim.Proofs.Simulation.Submission

/-!
# Runs leave nothing behind

A process may wait for a time, for a server or for those that it has forked, and these waits chain
across processes.  Every chain ends at a process that is going to run: whoever waits for a server
waits for somebody who has one, and whoever joins waits for a child, which has a larger identity.
So a run that has no time to stop at returns only when every process has finished, and then every
request has completed or failed (`runs_leave_nothing_behind`).
-/

namespace ServiceSim

open Activity

/-- Without processes nobody has a server or waits for one. -/
lemma Kernel.Queued.idle {k : Kernel Environment Activity} (h : k.Queued) (processes : k.processes = [])
    {key : ResourceKey} {servers : Servers} (line : k.world.resources.line key = some servers) :
    servers = Servers.idle servers.count := by
  obtain ⟨hagenda, hblocked⟩ := List.append_eq_nil_iff.mp processes
  have hserving := h.serving key servers line
  rw [Kernel.holders, hagenda] at hserving
  have hwaiting := h.waiting key servers line
  rw [Kernel.waiters, hblocked] at hwaiting
  obtain ⟨count, serving, waiting⟩ := servers
  rw [Servers.idle, Servers.mk.injEq]
  exact ⟨rfl, hserving.eq_nil, hwaiting⟩

namespace Simulation

/-- The states of a simulation between its runs: requests are submitted, a reconfigurator is
installed and runs return, in any order. -/
inductive Reachable (config : SimulationConfig) (model : SystemModel) : Simulation → Prop where
  | begins {s : Simulation} : ofModel config model = .ok s → Reachable config model s
  | submits {s s' : Simulation} {spec : RequestSpec} {request : PendingRequest} :
      Reachable config model s → s.submit spec = .ok (request, s') → Reachable config model s'
  | reconfigures {s : Simulation} (reconfigurator : Reconfigurator) :
      Reachable config model s → Reachable config model (s.withReconfigurator reconfigurator)
  | runs {s s' : Simulation} {fuel : Nat} {report : SimulationReport} :
      Reachable config model s → s.run fuel = some (report, s') → Reachable config model s'

/-- A simulation in order: lines and processes agree, and every request is accounted for. -/
structure Orderly (config : SimulationConfig) (s : Simulation) : Prop where
  config : s.config = config
  queued : s.kernel.Queued
  accounted : s.kernel.Accounted s.submitted
  pending : ∀ request ∈ s.pending, request.number < s.submitted

variable {config : SimulationConfig} {model : SystemModel} {s s' : Simulation} {fuel : Nat}
  {report : SimulationReport}

/-- What changes only what processes do not depend on keeps a simulation in order. -/
lemma Orderly.of_steady (h : Orderly config s) {env : Environment}
    (steady : s.kernel.world.Steady env) :
    Orderly config { s with kernel := { s.kernel with world := env } } := by
  refine ⟨h.config, Kernel.mapWorld_queued (f := fun _ => env) h.queued steady, ?_, h.pending⟩
  intro n hn
  rcases h.accounted n hn with hserved | hdone
  · exact .inl hserved
  · exact .inr (by rw [steady.completions]; exact hdone)

lemma Orderly.submit (h : Orderly config s) {spec : RequestSpec} {request : PendingRequest}
    (hsubmit : s.submit spec = .ok (request, s')) : Orderly config s' := by
  obtain ⟨behavior, -, hrequest, hs'⟩ := submit_ok hsubmit
  subst hs'
  refine ⟨h.config, Kernel.spawn_queued h.queued (ofRequest_awake _ _ _ _ _) rfl,
    Kernel.spawn_accounted h.accounted rfl, ?_⟩
  intro r hr
  rcases List.mem_append.mp hr with hr | hr
  · exact Nat.lt_succ_of_lt (h.pending r hr)
  · rw [List.mem_singleton.mp hr, hrequest]
    exact Nat.lt_succ_self _

/-- How a run ends: the kernel is in order, and without a time to stop at no process is left. -/
lemma Orderly.run (h : Orderly config s) (hrun : s.run fuel = some (report, s')) :
    ∃ kernel env, kernel.world.Steady env ∧ report = { s with kernel := kernel }.report ∧
      s' = { s with kernel := { kernel with world := env }, pending := [] } ∧
      Orderly config { s with kernel := kernel } ∧
      (config.stopTime = none → kernel.processes = []) := by
  obtain ⟨kernel, env, hsteady, hkernel, hreport, hs'⟩ := run_ok hrun
  have hstart := h.of_steady ((Environment.Steady.refl _).note
    (.runStarted s.pending.length s.config.seed))
  have hends : kernel.Queued ∧ kernel.Accounted s.submitted ∧
      (s.config.stopTime = none → kernel.processes = []) := by
    refine Kernel.run_induction (P := fun k => k.Queued ∧ k.Accounted s.submitted)
      (Q := fun k => k.Queued ∧ k.Accounted s.submitted ∧
        (s.config.stopTime = none → k.processes = []))
      s.started ⟨hstart.queued, hstart.accounted⟩ ?_ ?_ hkernel
    · rintro k k' ⟨queued, accounted⟩ hstep
      exact ⟨Kernel.step_queued queued hstep, Kernel.step_accounted queued accounted hstep⟩
    · rintro k k' ⟨queued, accounted⟩ hstep
      obtain ⟨quiet, hnone⟩ := Kernel.step_ends queued.joined.order hstep
      refine ⟨quiet.queued queued, quiet.accounted accounted, fun unlimited => ?_⟩
      obtain ⟨rfl, hagenda⟩ := hnone (by rw [unlimited]; rfl)
      exact queued.all_finished hagenda
  exact ⟨kernel, env, hsteady, hreport, hs', ⟨h.config, hends.1, hends.2.1, h.pending⟩,
    h.config ▸ hends.2.2⟩

/-- Every simulation that comes about is in order. -/
lemma Reachable.orderly (h : Reachable config model s) : Orderly config s := by
  induction h with
  | begins hmodel =>
    obtain ⟨-, -, -, hconfig, hpending, hsubmitted, -⟩ := ofModel_ok hmodel
    exact ⟨hconfig, ofModel_queued hmodel, by simp [hsubmitted, Kernel.Accounted],
      by simp [hpending]⟩
  | submits _ hsubmit ih => exact ih.submit hsubmit
  | reconfigures reconfigurator _ ih =>
    exact ih.of_steady ((Environment.Steady.refl _).reconfigured reconfigurator)
  | runs _ hrun ih =>
    obtain ⟨kernel, env, hsteady, -, rfl, h, -⟩ := ih.run hrun
    obtain ⟨hconfig, hqueued, haccounted, -⟩ := h.of_steady hsteady
    exact ⟨hconfig, hqueued, haccounted, by simp⟩

/-- **The kernel of a simulation emerges**: it comes about from one without processes, and every run
begins from there.  So what holds between a fork and its join holds in every run of a simulation. -/
theorem Reachable.emerges (h : Reachable config model s) :
    s.kernel.Emerges s.deployment ∧ s.started.Emerges s.deployment := by
  have hnotes : ∀ {s : Simulation} {env : Environment}, s.kernel.Emerges s.deployment →
      s.kernel.world.Steady env → (s.kernel.mapWorld fun _ => env).Emerges s.deployment :=
    fun emerges steady => emerges.interlude (.notes _ steady)
  have hkernel : s.kernel.Emerges s.deployment := by
    induction h with
    | begins hmodel =>
      obtain ⟨resources, hresources, -, -, -, -, hkernel⟩ := ofModel_ok hmodel
      rw [hkernel]
      refine .starts _ rfl fun key t ht => ?_
      obtain ⟨hserving, hwaiting, hcount, -⟩ := Resources.ofContainers_line hresources ht
      exact ⟨hcount, hserving, hwaiting⟩
    | submits _ hsubmit ih =>
      obtain ⟨behavior, -, -, rfl⟩ := submit_ok hsubmit
      exact ih.interlude (.enters (.ofRequest _ _ _ _ _))
    | reconfigures reconfigurator _ ih =>
      exact (hnotes ih ((Environment.Steady.refl _).reconfigured reconfigurator) :)
    | @runs s s' fuel report _ hrun ih =>
      obtain ⟨kernel, env, hsteady, hkernel, -, rfl⟩ := run_ok hrun
      have hends : kernel.Emerges s.deployment := by
        refine Kernel.run_induction (P := Kernel.Emerges s.deployment) s.started ?_ ?_ ?_ hkernel
        · exact hnotes ih ((Environment.Steady.refl _).note _)
        · exact fun k k' emerges hstep => emerges.goes hstep
        · exact fun k k' emerges hstep => emerges.interlude (.rests hstep)
      exact hnotes (s := { s with kernel := kernel }) hends hsteady
  exact ⟨hkernel, hnotes hkernel ((Environment.Steady.refl _).note _)⟩

/-- **Runs leave nothing behind.**  Whenever a run returns that has no time to stop at, every process
spawned so far has finished, none is parked, and all servers of all resources are free.  Every
request submitted so far has been completed, so the report tells of none that is incomplete. -/
theorem runs_leave_nothing_behind (h : Reachable config model s) (unlimited : config.stopTime = none)
    (hrun : s.run fuel = some (report, s')) :
    s'.kernel.processes = [] ∧ s'.kernel.parked = [] ∧
      (∀ key servers, s'.kernel.world.resources.line key = some servers →
        servers = Servers.idle servers.count) ∧
      (∀ n < s'.submitted, (s'.kernel.world.completion? n).isSome = true) ∧
      report.requests.map RequestOutcome.request = s.pending ∧
      ∀ outcome ∈ report.requests, outcome.fate.isIncomplete = false := by
  obtain ⟨kernel, env, hsteady, rfl, rfl, horderly, hfinished⟩ := h.orderly.run hrun
  have hprocesses := hfinished unlimited
  have hcompleted : ∀ n < s.submitted, ∃ c, kernel.world.completion? n = some c := by
    intro n hn
    obtain ⟨c, hc, -⟩ := horderly.accounted.completed hprocesses hn
    exact ⟨c, hc⟩
  refine ⟨hprocesses, ?_, ?_, ?_, ?_, ?_⟩
  · obtain ⟨hagenda, -⟩ := List.append_eq_nil_iff.mp hprocesses
    have hagenda' := List.map_eq_nil_iff.mp hagenda
    rw [Kernel.agenda, Kernel.others, List.append_eq_nil_iff, List.append_eq_nil_iff] at hagenda'
    exact List.map_eq_nil_iff.mp hagenda'.2.2
  · intro key servers line
    change env.resources.line key = some servers at line
    rw [hsteady.resources] at line
    exact horderly.queued.idle hprocesses line
  · intro n hn
    obtain ⟨c, hc⟩ := hcompleted n hn
    change (env.completion? n).isSome = true
    rw [hsteady.completion?, hc]
    rfl
  · simp only [Simulation.report, List.map_map]
    exact List.map_id _
  · intro outcome houtcome
    obtain ⟨request, hrequest, rfl⟩ := List.mem_map.mp houtcome
    obtain ⟨c, hc⟩ := hcompleted _ (h.orderly.pending request hrequest)
    simp only [Simulation.outcome, Kernel.fate, hc, Fate.ofCompletion]
    cases c.result <;> rfl

/-- Two requests at one server, each of which waits for one of the two processes that it forks. -/
theorem runs_leave_nothing_behind_contending :
    ∃ (model : SystemModel) (s s' : Simulation) (report : SimulationReport),
      Reachable .default model s ∧ SimulationConfig.default.stopTime = none ∧
      s.run 300 = some (report, s') ∧ s.pending.length = 2 ∧
      s'.kernel.processes = [] ∧ s'.kernel.parked = [] ∧
      (∀ key servers, s'.kernel.world.resources.line key = some servers →
        servers = Servers.idle servers.count) ∧
      (∀ n < s'.submitted, (s'.kernel.world.completion? n).isSome = true) ∧
      report.requests.map RequestOutcome.request = s.pending ∧
      ∀ outcome ∈ report.requests, outcome.fate.isIncomplete = false := by
  let work : Behavior := ⟨"work", [⟨"w0", "", some "w1", .start⟩,
    ⟨"w1", "", some "w2", .internal [⟨"cpu", ⟨"2", .literal (.int 2)⟩⟩]⟩, ⟨"w2", "", none, .stop⟩]⟩
  let serve : Behavior := ⟨"serve", [⟨"s0", "", some "s1", .start⟩,
    ⟨"s1", "", some "s2", .fork [work] [work]⟩, ⟨"s2", "", none, .stop⟩]⟩
  let model : SystemModel := ⟨"", [⟨"C", "", [⟨"serve", serve⟩]⟩], [⟨"A", "", "C"⟩], [],
    [⟨"host", "", [⟨"cpu", 1, 1, .fcfs⟩]⟩], [⟨"A", "host"⟩], []⟩
  let first : RequestSpec := ⟨"A", "serve", [], .ofSeconds 0⟩
  let second : RequestSpec := ⟨"A", "serve", [], .ofSeconds 1⟩
  have hreturns : ((ofModel .default model).toOption.bind fun s₀ =>
      (submitAll [first, second] s₀).toOption.bind fun s => (s.run 300).map fun _ =>
        s.pending.length) = some 2 := by decide +kernel
  obtain ⟨s₀, s, report, s', hmodel, hsubmit, hrun, hpending⟩ := exists_run hreturns
  have hreachable : Reachable .default model s :=
    submitAll_induction (P := fun _ s => Reachable .default model s) (.begins hmodel)
      (fun _ _ _ _ _ _ hbefore hsubmit => hbefore.submits hsubmit) hsubmit
  exact ⟨model, s, s', report, hreachable, rfl, hrun, hpending,
    runs_leave_nothing_behind hreachable rfl hrun⟩

end Simulation

end ServiceSim

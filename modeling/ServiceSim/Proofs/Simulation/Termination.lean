import ServiceSim.Proofs.Interpreter.Descent
import ServiceSim.Proofs.Simulation.Submission

/-!
# Acyclic systems terminate

Where no service calls itself, not even through other services, every run of a simulation returns,
whatever has been submitted and whatever has run before, wherever a run stops, and whatever is drawn
(`acyclic_runs_return`).  No bound on the length of walks is behind this: the walk along a behavior
that is accepted ends by itself (`Behavior.chainFrom_eq_chain`).
-/

namespace ServiceSim.Simulation

/-- The states of a simulation of a model, with any configuration: another random source or a
reconfigurator is installed, requests are submitted and runs return, in any order. -/
inductive Arises (model : SystemModel) : Simulation → Prop
  | begins {config : SimulationConfig} {s : Simulation} : ofModel config model = .ok s →
      Arises model s
  | draws {s : Simulation} (source : Source) : Arises model s →
      Arises model (s.mapEnvironment fun env => { env with source := source })
  | reconfigures {s : Simulation} (reconfigurator : Reconfigurator) : Arises model s →
      Arises model (s.withReconfigurator reconfigurator)
  | submits {s s' : Simulation} {spec : RequestSpec} {request : PendingRequest} :
      Arises model s → s.submit spec = .ok (request, s') → Arises model s'
  | runs {s s' : Simulation} {fuel : Nat} {report : SimulationReport} : Arises model s →
      s.run fuel = some (report, s') → Arises model s'

variable {model : SystemModel} {s s' : Simulation} {fuel : Nat} {report : SimulationReport}

/-- A run leaves its processes where behaviors are hosted. -/
lemma situated_run (h : s.kernel.Situated s.deployment) (hrun : s.run fuel = some (report, s')) :
    s'.kernel.Situated s'.deployment ∧ s'.deployment = s.deployment := by
  obtain ⟨kernel, env, -, hkernel, -, rfl⟩ := run_ok hrun
  have hends : kernel.Situated s.deployment := by
    refine Kernel.run_induction (P := fun k => k.Situated s.deployment)
      (Q := fun k => k.Situated s.deployment) s.started ?_ ?_ ?_ hkernel
    · exact Kernel.mapWorld_situated h _
    · exact fun k k' situated hstep => Kernel.step_situated situated hstep
    · exact fun k k' situated hstep => (Kernel.step_ends situated.order hstep).1.situated situated
  exact ⟨Kernel.mapWorld_situated hends fun _ => env, rfl⟩

lemma situated_mapEnvironment (h : s.kernel.Situated s.deployment)
    (f : Environment → Environment) :
    (s.mapEnvironment f).kernel.Situated (s.mapEnvironment f).deployment :=
  Kernel.mapWorld_situated h f

lemma Arises.situated (h : Arises model s) :
    s.kernel.Situated s.deployment ∧ s.deployment.model = model := by
  induction h with
  | begins hmodel =>
    obtain ⟨resources, -, hdeployment, -, -, -, hkernel⟩ := ofModel_ok hmodel
    rw [hkernel]
    exact ⟨Kernel.initial_situated _ _, hdeployment⟩
  | draws source _ ih => exact ⟨situated_mapEnvironment ih.1 _, ih.2⟩
  | reconfigures reconfigurator _ ih => exact ⟨situated_mapEnvironment ih.1 _, ih.2⟩
  | submits _ hsubmit ih =>
    obtain ⟨behavior, hprovided, -, rfl⟩ := submit_ok hsubmit
    exact ⟨Kernel.spawn_situated ih.1 (Activity.ofRequest_placed hprovided _ _ _), ih.2⟩
  | runs _ hrun ih =>
    obtain ⟨hsituated, hdeployment⟩ := situated_run ih.1 hrun
    exact ⟨hsituated, hdeployment ▸ ih.2⟩

/-- **Acyclic systems terminate.**  Where the call graph has no cycle, every run returns: there is a
number of steps within which it has taken all its turns and clock advances. -/
theorem acyclic_runs_return (h : Arises model s) (acyclic : s.deployment.Acyclic) :
    ∃ fuel report s', s.run fuel = some (report, s') := by
  have hstarted : s.started.Situated s.deployment := Kernel.mapWorld_situated h.situated.1 _
  obtain ⟨fuel, kernel, hkernel⟩ :=
    Kernel.run_returns_of_acyclic acyclic hstarted (s.config.stopTime.map .ofSeconds)
  exact ⟨fuel, _, _, by rw [run_eq, hkernel]; rfl⟩

/-- Two requests that stop early, from other words than those of a seed.  The service called first
calls another one in a loop, which forks two processes that call a third. -/
theorem acyclic_runs_return_nested :
    ∃ (model : SystemModel) (s : Simulation), Arises model s ∧ s.deployment.Acyclic ∧
      s.kernel.processes.length = 2 ∧ s.config.stopTime.isSome = true ∧
      ∃ fuel report s', s.run fuel = some (report, s') := by
  let config : SimulationConfig := ⟨42, some 3, false⟩
  let call : Behavior := ⟨"call", [⟨"c0", "", some "c1", .start⟩,
    ⟨"c1", "", some "c2", .externalCall ⟨"next", "serve", [], []⟩⟩, ⟨"c2", "", none, .stop⟩]⟩
  let front : Behavior := ⟨"front", [⟨"f0", "", some "f1", .start⟩,
    ⟨"f1", "", some "f2", .loop ⟨"2", .literal (.int 2)⟩ call⟩, ⟨"f2", "", none, .stop⟩]⟩
  let middle : Behavior := ⟨"middle", [⟨"m0", "", some "m1", .start⟩,
    ⟨"m1", "", some "m2", .fork [call] [call]⟩, ⟨"m2", "", none, .stop⟩]⟩
  let back : Behavior := ⟨"back", [⟨"b0", "", some "b1", .start⟩,
    ⟨"b1", "", some "b2", .internal [⟨"cpu", ⟨"1", .literal (.int 1)⟩⟩]⟩, ⟨"b2", "", none, .stop⟩]⟩
  let model : SystemModel := ⟨"", [⟨"Front", "", [⟨"serve", front⟩]⟩,
    ⟨"Middle", "", [⟨"serve", middle⟩]⟩, ⟨"Back", "", [⟨"serve", back⟩]⟩],
    [⟨"A", "", "Front"⟩, ⟨"B", "", "Middle"⟩, ⟨"C", "", "Back"⟩],
    [⟨"A", "next", "B"⟩, ⟨"B", "next", "C"⟩],
    [⟨"host", "", [⟨"cpu", 1, 1, .fcfs⟩]⟩], [⟨"C", "host"⟩], []⟩
  let specs : List RequestSpec :=
    [⟨"A", "serve", [], .ofSeconds 0⟩, ⟨"A", "serve", [], .ofSeconds 1⟩]
  let installs : Environment → Environment := fun env => { env with source := .ofWords [7, 11] }
  let layer : ContextId → Nat := fun c => if c = "A" then 2 else if c = "B" then 1 else 0
  have layers : ∀ connector ∈ model.connectors,
      layer connector.providing < layer connector.requiring := by decide +kernel
  have hsubmitted : ((ofModel config model).toOption.bind fun s₀ =>
      (submitAll specs (s₀.mapEnvironment installs)).toOption.map fun s =>
        (s.kernel.processes.length, s.config.stopTime.isSome)) = some (2, true) := by
    decide +kernel
  cases hmodel : ofModel config model with
  | error e => simp [hmodel, Except.toOption] at hsubmitted
  | ok s₀ =>
    cases hsubmit : submitAll specs (s₀.mapEnvironment installs) with
    | error e => simp [hmodel, hsubmit, Except.toOption] at hsubmitted
    | ok s =>
      simp only [hmodel, hsubmit, Except.toOption, Option.bind_some, Option.map_some,
        Option.some.injEq, Prod.mk.injEq] at hsubmitted
      have harises : Arises model s := submitAll_induction (P := fun _ s => Arises model s)
        (.draws _ (.begins hmodel)) (fun _ _ _ _ _ _ hbefore hsubmit => hbefore.submits hsubmit)
        hsubmit
      have acyclic : s.deployment.Acyclic :=
        Deployment.acyclic_of_layers layer (by rw [harises.situated.2]; exact layers)
      exact ⟨model, s, harises, acyclic, hsubmitted.1, hsubmitted.2,
        acyclic_runs_return harises acyclic⟩

end ServiceSim.Simulation

import ServiceSim.Proofs.Interpreter.Measuring
import ServiceSim.Proofs.Simulation.Chronicle

/-!
# Calls are measured once

In a model whose labels tell calls apart, the response times that a simulation has measured are those
of the monitored calls that have returned, each of them once.  This holds at any moment of any
sequence of submissions and runs, while calls of other processes, and calls within calls, are under
way (`calls_measured_once`).
-/

namespace ServiceSim

/-- Who keeps the log of external calls. -/
def CallLog.observer : Observer CallLog := ⟨.empty, fun d k _ l => k.recordCalls d l⟩

namespace Simulation

/-- **The measurements of a simulation**, compared with the log of its external calls. -/
structure MeasuresCalls (s : Simulation) (l : CallLog) : Prop where
  /-- There is one response time for each monitored execution that has returned, with the name of
  its calculator, the process that called, and the times at which it began and returned. -/
  measured : s.kernel.world.recorder.responseTimes.Perm
    ((l.returned.filter (·.1.site.isMonitored s.deployment)).map fun y => y.1.measurement y.2)
  /-- Every execution has its own frame. -/
  distinct : (l.begun.map Execution.frame).Nodup
  /-- None returns twice. -/
  once : (l.returned.map (·.1.frame)).Nodup
  /-- All that begin are at call sites. -/
  begun : ∀ x ∈ l.begun, s.deployment.IsCallSite x.site
  /-- All that return have begun, not later. -/
  returned : ∀ y ∈ l.returned, y.1 ∈ l.begun ∧ y.1.start ≤ y.2
  /-- Calls that are under way have begun and have not returned. -/
  underWay : ∀ p ∈ s.kernel.processes, ∀ call ∈ p.2.calls, ∃ x ∈ l.begun,
    x.site = call.1 ∧ x.frame = call.2 ∧ x.process = p.1 ∧ ∀ y ∈ l.returned, y.1.frame ≠ x.frame

variable {config : SimulationConfig} {model : SystemModel} {s : Simulation} {l : CallLog}

/-- Whatever happens to a simulation, the log of its calls agrees with its recorder. -/
lemma Chronicle.measured (h : Chronicle config model CallLog.observer s l)
    (identify : s.deployment.LabelsIdentify) : s.kernel.Measured s.deployment l := by
  induction h with
  | @begins s hmodel =>
    obtain ⟨resources, -, -, -, -, -, hkernel⟩ := ofModel_ok hmodel
    rw [hkernel]
    exact Kernel.initial_measured _ _ _
  | submits _ hsubmit ih =>
    obtain ⟨behavior, hprovided, -, rfl⟩ := submit_ok hsubmit
    exact Kernel.spawn_measured (ih identify) rfl (Activity.ofRequest_placed hprovided _ _ _)
  | goes _ hstep ih => exact Kernel.step_measured (ih identify) identify hstep
  | rests _ hstep ih =>
    have hmeasured := ih identify
    exact (Kernel.step_ends hmeasured.order hstep).1.measured hmeasured
  | notes event _ ih =>
    exact Kernel.mapWorld_measured (ih identify) ((Environment.Unmeasured.refl _).note event)
  | reconfigures reconfigurator _ ih =>
    exact Kernel.mapWorld_measured (f := fun env => { env with reconfigurator := reconfigurator })
      (ih identify) ⟨rfl, Nat.le_refl _⟩
  | reports _ ih => exact ih identify

/-- **Every monitored call that has returned is measured once**, and nothing else is measured. -/
theorem calls_measured_once (h : Chronicle config model CallLog.observer s l)
    (identify : s.deployment.LabelsIdentify) : MeasuresCalls s l := by
  have htally := (h.measured identify).tally
  have hreturned : (l.returned.map (·.1.frame)).Nodup :=
    htally.once.sublist (List.sublist_append_right _ _)
  refine ⟨htally.responseTimes identify, htally.distinct, hreturned,
    fun x hx => (htally.begun x hx).1, htally.returned, fun p hp call hcall => ?_⟩
  have hline := List.mem_map_of_mem (f := Kernel.lineOf) hp
  obtain ⟨-, xs, hbegun, hcalls, -⟩ := htally.underWay _ hline
  have hcall' : call ∈ xs.map fun x => (x.site, x.frame) := hcalls ▸ hcall
  obtain ⟨x, hx, rfl⟩ := List.mem_map.mp hcall'
  obtain ⟨hmem, hprocess⟩ := hbegun x hx
  refine ⟨x, hmem, rfl, rfl, hprocess, fun y hy hframe => ?_⟩
  have hunder : x.frame ∈ framesOf (s.kernel.processes.map Kernel.lineOf) :=
    List.mem_flatMap.mpr ⟨_, hline, List.mem_map_of_mem (f := Prod.snd) hcall⟩
  exact List.disjoint_of_nodup_append htally.once hunder
    (hframe ▸ List.mem_map_of_mem (f := fun y : Execution × SimTime => y.1.frame) hy)

/-- Two requests whose calls lead to further calls.  All four calls have returned and are measured. -/
theorem calls_measured_once_nested :
    ∃ (model : SystemModel) (s : Simulation) (l : CallLog),
      Chronicle .default model CallLog.observer s l ∧ s.deployment.LabelsIdentify ∧
      l.returned.length = 4 ∧ s.kernel.world.recorder.responseTimes.length = 4 ∧
      MeasuresCalls s l := by
  let front : Behavior := ⟨"front", [⟨"f0", "", some "f1", .start⟩,
    ⟨"f1", "ask", some "f2", .externalCall ⟨"next", "serve", [], []⟩⟩, ⟨"f2", "", none, .stop⟩]⟩
  let back : Behavior := ⟨"back", [⟨"b0", "", some "b1", .start⟩,
    ⟨"b1", "", some "b2", .internal [⟨"cpu", ⟨"2", .literal (.int 2)⟩⟩]⟩, ⟨"b2", "", none, .stop⟩]⟩
  let model : SystemModel := ⟨"",
    [⟨"Front", "", [⟨"serve", front⟩]⟩, ⟨"Back", "", [⟨"serve", back⟩]⟩],
    [⟨"A", "a", "Front"⟩, ⟨"B", "b", "Front"⟩, ⟨"C", "c", "Back"⟩],
    [⟨"A", "next", "B"⟩, ⟨"B", "next", "C"⟩],
    [⟨"host", "", [⟨"cpu", 1, 1, .fcfs⟩]⟩], [⟨"C", "host"⟩], [⟨"f1", .responseTime⟩]⟩
  let specs : List RequestSpec :=
    [⟨"A", "serve", [], .ofSeconds 0⟩, ⟨"A", "serve", [], .ofSeconds 1⟩]
  have flat : ∀ component ∈ model.components, ∀ effect ∈ component.services,
      ∀ action ∈ effect.behavior.actions, action.kind.bodies.isEmpty = true := by decide +kernel
  have named : ∀ component ∈ model.components, ∀ effect ∈ component.services,
      ∀ action ∈ effect.behavior.actions, action.kind.label = "external call" →
        action.id = "f1" := by decide +kernel
  have hcounts : ((ofModel .default model).toOption.bind fun s₀ =>
      (submitAll specs s₀).toOption.bind fun s => (s.run 300).map fun returned =>
        ((CallLog.observer.watch s.deployment (s.config.stopTime.map .ofSeconds) 300 s.started
          .empty).returned.length, returned.2.kernel.world.recorder.responseTimes.length)) =
      some (4, 4) := by decide +kernel
  obtain ⟨s₀, s, report, s', hmodel, hsubmit, hrun, hvalues⟩ := exists_run hcounts
  have hchronicle := ((Chronicle.begins (o := CallLog.observer) hmodel).submitAll hsubmit).run hrun
  have identify : s'.deployment.LabelsIdentify := by
    have hid : ∀ site, s'.deployment.IsCallSite site → site.action.id = "f1" := by
      rintro site ⟨-, hcall, b, hhosts, hmem⟩
      rw [← hchronicle.model_eq] at flat named
      obtain ⟨component, hcomponent, effect, heffect, rfl⟩ := hhosts.mem_services flat
      exact named component hcomponent effect heffect site.action hmem (hcall ▸ rfl)
    exact fun site site' hsite hsite' _ => (hid site hsite).trans (hid site' hsite').symm
  simp only [Prod.mk.injEq] at hvalues
  exact ⟨model, s', _, hchronicle, identify, hvalues.1, hvalues.2,
    calls_measured_once hchronicle identify⟩

end Simulation

end ServiceSim

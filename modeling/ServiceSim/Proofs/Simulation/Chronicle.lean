import ServiceSim.Proofs.Simulation.Submission

/-!
# Chronicles

An observer of a simulation keeps a log of the steps that its runs take.  `Simulation.Chronicle` has
all that can happen to a simulation, from its model on, together with the log that an observer has by
then: requests are submitted, runs take one step after another, and somebody outside logs or installs
something.
-/

namespace ServiceSim

/-- Somebody who keeps a log of the steps of a kernel. -/
structure Observer (Log : Type) where
  /-- The log before anything happens. -/
  start : Log
  /-- The log after a step between two states, given the log before. -/
  record : Deployment → Kernel Environment Activity → Kernel Environment Activity → Log → Log

/-- The log when a kernel has taken at most as many steps. -/
def Observer.watch {Log : Type} (o : Observer Log) (d : Deployment) (stop : Option SimTime) :
    (fuel : Nat) → Kernel Environment Activity → Log → Log
  | 0, _, l => l
  | fuel + 1, k, l =>
    match k.step (Activity.program d) stop with
    | .ends _ => l
    | .goes k' => o.watch d stop fuel k' (o.record d k k' l)

/-- What every step of a run keeps, of the kernel and of the log, holds at its end. -/
theorem Observer.watch_induction {Log : Type} {o : Observer Log} {d : Deployment}
    {stop : Option SimTime} {P Q : Kernel Environment Activity → Log → Prop}
    {k k' : Kernel Environment Activity} {l : Log} {fuel : Nat} (start : P k l)
    (goes : ∀ k l k', P k l → k.step (Activity.program d) stop = .goes k' →
      P k' (o.record d k k' l))
    (ends : ∀ k l k', P k l → k.step (Activity.program d) stop = .ends k' → Q k' l)
    (hrun : k.run (Activity.program d) stop fuel = some k') : Q k' (o.watch d stop fuel k l) := by
  induction fuel generalizing k l with
  | zero => cases hrun
  | succ fuel ih =>
    rw [Kernel.run] at hrun
    rw [Observer.watch]
    cases hstep : k.step (Activity.program d) stop with
    | ends k₁ =>
      rw [hstep] at hrun
      injection hrun with hrun
      exact hrun ▸ ends k l k₁ start hstep
    | goes k₁ =>
      rw [hstep] at hrun
      exact ih (goes k l k₁ start hstep) hrun

namespace Simulation

/-- What can happen to the simulation of a model, with the log of an observer. -/
inductive Chronicle {Log : Type} (config : SimulationConfig) (model : SystemModel)
    (o : Observer Log) : Simulation → Log → Prop where
  | begins {s : Simulation} : ofModel config model = .ok s → Chronicle config model o s o.start
  | submits {s s' : Simulation} {l : Log} {spec : RequestSpec} {request : PendingRequest} :
      Chronicle config model o s l → s.submit spec = .ok (request, s') → Chronicle config model o s' l
  | goes {s : Simulation} {l : Log} {stop : Option SimTime} {k' : Kernel Environment Activity} :
      Chronicle config model o s l →
      s.kernel.step (Activity.program s.deployment) stop = .goes k' →
      Chronicle config model o { s with kernel := k' } (o.record s.deployment s.kernel k' l)
  | rests {s : Simulation} {l : Log} {stop : Option SimTime} {k' : Kernel Environment Activity} :
      Chronicle config model o s l →
      s.kernel.step (Activity.program s.deployment) stop = .ends k' →
      Chronicle config model o { s with kernel := k' } l
  | notes {s : Simulation} {l : Log} (event : LogEvent) : Chronicle config model o s l →
      Chronicle config model o (s.note event) l
  | reconfigures {s : Simulation} {l : Log} (reconfigurator : Reconfigurator) :
      Chronicle config model o s l →
      Chronicle config model o (s.withReconfigurator reconfigurator) l
  | reports {s : Simulation} {l : Log} : Chronicle config model o s l →
      Chronicle config model o { s with pending := [] } l

namespace Chronicle

variable {Log : Type} {config : SimulationConfig} {model : SystemModel} {o : Observer Log}
  {s s' : Simulation} {l : Log} {fuel : Nat}

/-- The model stays the same. -/
lemma model_eq (h : Chronicle config model o s l) : s.deployment.model = model := by
  induction h with
  | begins hmodel =>
    obtain ⟨-, -, hmodel, -⟩ := ofModel_ok hmodel
    exact hmodel
  | submits _ hsubmit ih =>
    obtain ⟨-, -, -, rfl⟩ := submit_ok hsubmit
    exact ih
  | goes _ _ ih => exact ih
  | rests _ _ ih => exact ih
  | notes _ _ ih => exact ih
  | reconfigures _ _ ih => exact ih
  | reports _ ih => exact ih

/-- Submitting requests is part of a chronicle. -/
lemma submitAll (h : Chronicle config model o s l) {specs : List RequestSpec}
    (hsubmit : submitAll specs s = .ok s') : Chronicle config model o s' l :=
  submitAll_induction (P := fun _ s => Chronicle config model o s l) h
    (fun _ _ _ _ _ _ hbefore hsubmit => hbefore.submits hsubmit) hsubmit

lemma kernel_run (h : Chronicle config model o s l) {stop : Option SimTime}
    {k' : Kernel Environment Activity}
    (hrun : s.kernel.run (Activity.program s.deployment) stop fuel = some k') :
    Chronicle config model o { s with kernel := k' }
      (o.watch s.deployment stop fuel s.kernel l) :=
  Observer.watch_induction (P := fun k l => Chronicle config model o { s with kernel := k } l)
    (Q := fun k l => Chronicle config model o { s with kernel := k } l) h
    (fun _ _ _ h hstep => h.goes hstep) (fun _ _ _ h hstep => h.rests hstep) hrun

/-- Reports are logged without further steps. -/
lemma noteReport (h : Chronicle config model o s l) (report : SimulationReport) :
    Chronicle config model o (s.noteReport report) l := by
  refine .notes _ ?_
  generalize report.requests.filterMap (fun outcome => outcome.fate.event? outcome.request.number) =
    events
  induction events generalizing s with
  | nil => exact h
  | cons event events ih => exact ih (h.notes event)

/-- **A run is part of a chronicle.** -/
lemma run (h : Chronicle config model o s l) {report : SimulationReport}
    (hrun : s.run fuel = some (report, s')) :
    Chronicle config model o s' (o.watch s.deployment (s.config.stopTime.map .ofSeconds) fuel
      s.started l) := by
  simp only [Simulation.run] at hrun
  split at hrun
  · cases hrun
  next k' hkernel =>
    injection hrun with hrun
    injection hrun with _ hs
    subst hs
    exact .reports (((h.notes _).kernel_run hkernel).noteReport _)

end Chronicle

end Simulation

end ServiceSim

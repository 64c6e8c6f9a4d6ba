import ServiceSim.Proofs.Interpreter.Waiting
import ServiceSim.Proofs.Simulation.Arrivals

/-!
# Requests begin when their waits are over

Requests are submitted to a simulation between its runs, with any arrivals.  A request with an arrival
before the clock arrives at once, and every other one waits for the time that lies ahead of it.  It
begins when this wait is over and ends no earlier (`requests_begin_after_waiting`).

At the start of a simulation this is the arrival itself.  Later on the wait is the difference of two
doubles, and its end their sum, so a request may begin and end before the arrival that is reported of
it (`requests_begin_after_waiting_early`).
-/

namespace ServiceSim

open Activity

lemma Fate.time?_ofCompletion (c : Completion) : (Fate.ofCompletion c).time? = some c.time := by
  rw [ofCompletion]
  cases c.result <;> rfl

/-- Only a completion tells a time. -/
lemma Kernel.fate_time? (k : Kernel Environment Activity) (request : PendingRequest) :
    (k.fate request).time? = (k.world.completion? request.number).map Completion.time := by
  rw [fate]
  cases k.world.completion? request.number with
  | none =>
    dsimp only
    split <;> rfl
  | some c => exact Fate.time?_ofCompletion c

namespace Simulation

variable {config : SimulationConfig} {model : SystemModel} {s s' : Simulation}
  {admitted : List Admission} {l : Openings} {spec : RequestSpec} {request : PendingRequest}
  {fuel : Nat} {report : SimulationReport}

/-! ## Sessions -/

/-- How requests have begun when a run returns, given how they had begun before. -/
def opened (s : Simulation) (fuel : Nat) (l : Openings) : Openings :=
  Openings.observer.watch s.deployment (s.config.stopTime.map .ofSeconds) fuel s.started l

/-- What can be done with the simulation of a model, with the requests that have been accepted and how
requests have begun.  Refusing a request leaves the simulation as it is. -/
inductive Attended (config : SimulationConfig) (model : SystemModel) :
    Simulation → List Admission → Openings → Prop where
  | begins {s : Simulation} : ofModel config model = .ok s → Attended config model s [] .empty
  | accepts {s s' : Simulation} {admitted : List Admission} {l : Openings} {spec : RequestSpec}
      {request : PendingRequest} : Attended config model s admitted l →
      s.submit spec = .ok (request, s') →
      Attended config model s' (admitted ++ [⟨request, spec, s.kernel.now⟩]) l
  | reconfigures {s : Simulation} {admitted : List Admission} {l : Openings}
      (reconfigurator : Reconfigurator) : Attended config model s admitted l →
      Attended config model (s.withReconfigurator reconfigurator) admitted l
  | returns {s s' : Simulation} {admitted : List Admission} {l : Openings} {fuel : Nat}
      {report : SimulationReport} : Attended config model s admitted l →
      s.run fuel = some (report, s') → Attended config model s' admitted (s.opened fuel l)

/-- A simulation in agreement with the requests that it has accepted. -/
structure Admits (s : Simulation) (admitted : List Admission) (l : Openings) : Prop where
  attends : s.kernel.Attends admitted l
  numbered : admitted.map (·.request.number) = List.range s.submitted
  clamped : ∀ x ∈ admitted, x.request.arrival = x.spec.arrival.later x.clock
  pending : ∀ r ∈ s.pending, ∃ x ∈ admitted, x.request = r

lemma admits_start (hmodel : ofModel config model = .ok s) : Admits s [] .empty := by
  obtain ⟨resources, -, -, -, hpending, hsubmitted, hkernel⟩ := ofModel_ok hmodel
  have hqueued := ofModel_queued hmodel
  rw [hkernel] at hqueued
  refine ⟨hkernel ▸ Kernel.initial_attends rfl rfl hqueued, hsubmitted ▸ rfl, by simp, ?_⟩
  rw [hpending]
  exact fun r hr => absurd hr List.not_mem_nil

lemma Admits.submit (h : Admits s admitted l) (hsubmit : s.submit spec = .ok (request, s')) :
    Admits s' (admitted ++ [⟨request, spec, s.kernel.now⟩]) l := by
  obtain ⟨behavior, -, hrequest, rfl⟩ := submit_ok hsubmit
  refine ⟨h.attends.submit s.deployment behavior rfl (by rw [hrequest]), ?_,
    fun x hx => ?_, fun r hr => ?_⟩
  · rw [List.map_append, h.numbered, List.range_succ, hrequest]
    rfl
  · rcases List.mem_append.mp hx with hx | hx
    · exact h.clamped x hx
    · rw [List.mem_singleton.mp hx, hrequest]
  · rcases List.mem_append.mp hr with hr | hr
    · obtain ⟨x, hx, hsame⟩ := h.pending r hr
      exact ⟨x, List.mem_append_left _ hx, hsame⟩
    · exact ⟨_, List.mem_append_right _ List.mem_cons_self, (List.mem_singleton.mp hr).symm⟩

/-- What a run leaves in the kernel before it reports. -/
lemma Admits.run_attends (h : Admits s admitted l) {kernel : Kernel Environment Activity}
    (hkernel : s.started.run (Activity.program s.deployment) (s.config.stopTime.map .ofSeconds) fuel =
      some kernel) : kernel.Attends admitted (s.opened fuel l) :=
  Observer.watch_induction (o := Openings.observer) (P := fun k l => k.Attends admitted l)
    (Q := fun k l => k.Attends admitted l)
    (h.attends.of_steady ((Environment.Steady.refl _).note _))
    (fun _ _ _ attends hstep => Kernel.step_attends attends hstep)
    (fun _ _ _ attends hstep =>
      (Kernel.step_ends attends.queued.joined.order hstep).1.attends attends) hkernel

lemma Admits.run (h : Admits s admitted l) (hrun : s.run fuel = some (report, s')) :
    Admits s' admitted (s.opened fuel l) := by
  obtain ⟨kernel, env, hsteady, hkernel, -, rfl⟩ := run_ok hrun
  refine ⟨(h.run_attends hkernel).of_steady (f := fun _ => env) hsteady, h.numbered, h.clamped, ?_⟩
  exact fun r hr => absurd hr List.not_mem_nil

/-- **A simulation agrees with the requests that it has accepted.** -/
lemma Attended.admits (h : Attended config model s admitted l) : Admits s admitted l := by
  induction h with
  | begins hmodel => exact admits_start hmodel
  | accepts _ hsubmit ih => exact ih.submit hsubmit
  | reconfigures reconfigurator _ ih =>
    exact ⟨ih.attends.of_steady
      (f := fun env => { env with reconfigurator := reconfigurator })
      ((Environment.Steady.refl _).reconfigured _), ih.numbered, ih.clamped, ih.pending⟩
  | returns _ hrun ih => exact ih.run hrun

end Simulation

/-! ## When requests begin and end -/

/-- **A request waits for its arrival**, and then it begins, and ends at some later time. -/
structure Admission.BeginsAfterWaiting (x : Admission) (l : Openings) (ending : SimTime) : Prop where
  /-- Its arrival is reported as it was submitted, unless it was over. -/
  arrival : x.request.arrival = x.spec.arrival.later x.clock
  /-- Its inputs are bound when its wait is over. -/
  begins : (x.request.number, x.beginning) ∈ l.bound
  /-- This happens at no other time, and neither does its first action. -/
  once : ∀ time, (x.request.number, time) ∈ l.bound ∨ (x.request.number, time) ∈ l.acted →
    time = x.beginning
  /-- It does not end before. -/
  ends : x.beginning ≤ ending
  /-- It begins at its arrival, if it has been submitted at the start, -/
  start : x.clock = .zero → Binary64.IsDefined x.spec.arrival.seconds →
    x.beginning = x.request.arrival
  /-- or when its arrival was over. -/
  overdue : x.spec.arrival ≤ x.clock → x.beginning = x.request.arrival
  /-- It begins at once, if the reported arrival is no number. -/
  undefined : ¬ Binary64.IsDefined x.request.arrival.seconds → x.beginning = x.clock

namespace Simulation

variable {config : SimulationConfig} {model : SystemModel} {s s' : Simulation}
  {admitted : List Admission} {l : Openings} {fuel : Nat} {report : SimulationReport}

/-- Requests are told apart by their numbers. -/
lemma Admits.unique (h : Admits s admitted l) {x y : Admission} (hx : x ∈ admitted)
    (hy : y ∈ admitted) (same : x.request.number = y.request.number) : x = y :=
  List.inj_on_of_nodup_map (h.numbered ▸ List.nodup_range) hx hy same

/-- **Requests begin when their waits are over.**  Whatever is submitted to a simulation between its
runs, with any arrivals: a request that is reported to have ended has begun when its wait was over,
and not ended before. -/
theorem requests_begin_after_waiting (h : Attended config model s admitted l)
    (hrun : s.run fuel = some (report, s')) :
    ∀ o ∈ report.requests, ∀ ending, o.fate.time? = some ending →
      ∃ x ∈ admitted, x.request = o.request ∧ x.BeginsAfterWaiting (s.opened fuel l) ending := by
  have hadmits := h.admits
  obtain ⟨kernel, -, -, hkernel, rfl, -⟩ := run_ok hrun
  have hattends := hadmits.run_attends hkernel
  intro o ho ending hending
  obtain ⟨request, hrequest, rfl⟩ := List.mem_map.mp ho
  obtain ⟨x, hx, rfl⟩ := hadmits.pending request hrequest
  have hown : ∀ time, (x.request.number, time) ∈ (s.opened fuel l).bound → time = x.beginning := by
    intro time hbound
    obtain ⟨-, y, hy, hsame⟩ := hattends.onTime _ hbound
    injection hsame with hnumber htime
    rw [htime, hadmits.unique hx hy hnumber]
  have hclamped := hadmits.clamped x hx
  obtain ⟨time, hbound, hle⟩ : ∃ time, (x.request.number, time) ∈ (s.opened fuel l).bound ∧
      time ≤ ending := by
    have htold : (kernel.world.completion? x.request.number).map Completion.time = some ending :=
      (kernel.fate_time? x.request).symm.trans hending
    obtain ⟨c, hlookup, rfl⟩ := Option.map_eq_some_iff.mp htold
    exact hattends.completed _ (Environment.mem_of_completion? hlookup)
  obtain rfl := hown time hbound
  refine ⟨x, hx, rfl, hclamped, hbound, fun time htime => ?_, hle, fun clock number => ?_,
    fun hover => ?_, x.beginning_of_undefined⟩
  · exact htime.elim (hown time) fun hacted => hown time (hattends.actions hacted)
  · exact x.beginning_of_start clock hclamped number
  · exact x.beginning_of_arrived (hclamped.trans (SimTime.later_eq_right hover))

/-- The first request ends at `2 ^ -53`, and the second one is to arrive at `1 + 2 ^ -52`.  Their
difference lies halfway between two doubles, and so does the end of the wait.  Both are rounded down,
so the second request begins and ends before it arrives. -/
theorem requests_begin_after_waiting_early :
    ∃ (config : SimulationConfig) (model : SystemModel) (s s' : Simulation)
      (admitted : List Admission) (l : Openings) (report : SimulationReport) (o : RequestOutcome)
      (ending : SimTime) (x : Admission),
      Attended config model s admitted l ∧ s.run 100 = some (report, s') ∧ report.requests = [o] ∧
      o.fate.time? = some ending ∧ x ∈ admitted ∧ x.request = o.request ∧
      x.BeginsAfterWaiting (s.opened 100 l) ending ∧ x.beginning < o.request.arrival ∧
      ending < o.request.arrival := by
  let config : SimulationConfig := ⟨42, none, false⟩
  let rest : Behavior := ⟨"rest", [⟨"r0", "", some "r1", .start⟩, ⟨"r1", "", none, .stop⟩]⟩
  let model : SystemModel := ⟨"", [⟨"C", "", [⟨"rest", rest⟩]⟩], [⟨"A", "", "C"⟩], [],
    [⟨"host", "", []⟩], [⟨"A", "host"⟩], []⟩
  let soon : RequestSpec := ⟨"A", "rest", [], ⟨0x3CA0000000000000⟩⟩
  let next : RequestSpec := ⟨"A", "rest", [], ⟨0x3FF0000000000001⟩⟩
  have hreports : ((ofModel config model).toOption.bind fun s₀ =>
      (s₀.submit soon).toOption.bind fun x₀ => (x₀.2.run 100).bind fun first =>
      (first.2.submit next).toOption.bind fun x₁ => (x₁.2.run 100).map fun second =>
        second.1.requests.map fun o => (o.request.arrival, o.fate.time?)) =
      some [(⟨0x3FF0000000000001⟩, some ⟨0x3FF0000000000000⟩)] := by
    decide +kernel
  simp only [Option.bind_eq_some_iff, Option.map_eq_some_iff] at hreports
  obtain ⟨s₀, hmodel, x₀, h₀, first, hfirst, x₁, h₁, second, hsecond, hends⟩ := hreports
  obtain ⟨o, hone, hfate⟩ := List.map_eq_singleton_iff.mp hends
  injection hfate with harrival htime
  have hattended := (((Attended.begins (ok_of_toOption hmodel)).accepts (ok_of_toOption h₀)).returns
    hfirst).accepts (ok_of_toOption h₁)
  have hearly : (⟨0x3FF0000000000000⟩ : SimTime) < o.request.arrival := by
    rw [harrival]
    decide
  obtain ⟨x, hx, hsame, hbegins⟩ := requests_begin_after_waiting hattended hsecond o
    (hone ▸ List.mem_cons_self) _ htime
  exact ⟨config, model, _, _, _, _, _, o, _, x, hattended, hsecond, hone, htime, hx, hsame, hbegins,
    hbegins.ends.trans_lt hearly, hearly⟩

end Simulation

end ServiceSim

import ServiceSim.Proofs.Evaluation.Refinement
import ServiceSim.Proofs.Simulation.Submission

/-!
# Runs without a queue evaluate behaviors

In a model in which every resource is a pure delay and nothing is left to chance, the requests of a
run do not affect each other.  Each of them ends as the evaluator says, whatever else goes on: when
the first run of a simulation returns, every request has completed or failed at the evaluated time,
and those that have completed have returned the evaluated values (`requests_end_as_evaluated`).
-/

namespace ServiceSim

open Activity Evaluator

/-- The rates of the resources that a model describes. -/
def SystemModel.rates (m : SystemModel) (key : ResourceKey) : Option Float :=
  (Resources.described m.containers key).map ProcessingResource.processingRate

/-- The fate of a request that ends in a given way. -/
def Ending.tells : Ending → Fate → Prop
  | .completed time result, .completed time' results => time' = time ∧
      results = result.own.filterMap fun (name, b) => b.value?.map fun v => (name, v)
  | .failed time, .failed time' _ => time' = time
  | _, _ => False

/-- The reported request has ended as the evaluator says of the submitted one. -/
def RequestOutcome.IsEvaluated (d : Deployment) (spec : RequestSpec) (o : RequestOutcome) : Prop :=
  ∃ behavior ending, d.providedService spec.entry spec.service = .ok behavior ∧
    o.request.entry = spec.entry ∧ o.request.service = spec.service ∧
    o.request.arrival = spec.arrival.later .zero ∧
    Evaluator.request d d.model.rates spec.entry (spec.arrival.later .zero) spec.inputs behavior =
      some ending ∧ ending.tells o.fate

/-- A completion makes the fate that its ending tells. -/
lemma Completion.ending_tells (c : Completion) : c.ending.tells (.ofCompletion c) := by
  rw [ending, Fate.ofCompletion]
  cases c.result with
  | error e => exact rfl
  | ok frame =>
    refine ⟨rfl, ?_⟩
    rw [Frame.own_anonymous, anonymousAll, List.filterMap_map]
    congr 1
    funext p
    obtain ⟨name, b⟩ := p
    cases b <;> rfl

/-- Where every resource is a pure delay, none has a line. -/
lemma Resources.delays_of_containers {containers : List ResourceContainer} {rs : Resources}
    (h : ofContainers containers = .ok rs)
    (delay : ∀ c ∈ containers, ∀ r ∈ c.resources, r.scheduling = .delay) :
    rs.Delays fun key => (described containers key).map ProcessingResource.processingRate := by
  have hdelay : ∀ key spec, described containers key = some spec → spec.scheduling = .delay := by
    intro key spec hspec
    obtain ⟨c, hc, hr⟩ := Option.bind_eq_some_iff.mp hspec
    exact delay c (List.mem_reverse.mp (List.mem_of_find?_eq_some hc)) spec
      (List.mem_reverse.mp (List.mem_of_find?_eq_some hr))
  constructor
  · intro key
    cases hline : rs.line key with
    | none => rfl
    | some s =>
      obtain ⟨-, -, -, -, spec, hspec, hfcfs, -⟩ := ofContainers_line h hline
      rw [hdelay key spec hspec] at hfcfs
      cases hfcfs
  · intro key
    have hfind := ofContainers_find h key
    cases hspec : described containers key with
    | none =>
      rw [hspec] at hfind
      obtain ⟨e, he⟩ := hfind
      simp only [rate?, he, Option.map_none]
    | some spec =>
      rw [hspec] at hfind
      obtain ⟨r, hr, hfound⟩ := hfind
      simp only [rate?, hfound, Option.map_some, (ofSpec_ok hr).1]

/-- The ending of a request that enters at the start of a simulation. -/
lemma ofRequest_ending (d : Deployment) (rates : ResourceKey → Option Float) (number : Nat)
    (entry : ContextId) {arrival : SimTime} (nan : arrival.seconds.isNaN = false)
    (harrival : SimTime.zero ≤ arrival) (inputs : List VariableUsage) (behavior : Behavior) :
    (ofRequest number entry arrival inputs behavior).ending d rates .zero =
      Evaluator.request d rates entry arrival inputs behavior := by
  rw [Evaluator.request, ending, ofRequest, resume_cons, resumeTask, pure_bind, resume_cons,
    resumeTask]
  simp only [position, VariableStack.empty, List.map_nil, SimTime.zero_passing_since nan harrival,
    bind_assoc, pure_bind, Frame.empty_anonymous]
  rw [← outcome_of _ (fun m => ⟨m.time, [m.frame], [entry], m.result⟩) fun m => ⟨rfl, rfl⟩, bind_assoc]
  congr 2
  funext root
  rw [resume_cons, resumeTask]
  simp only [onTop, enter, bind_assoc, pure_bind]
  rfl

namespace Simulation

variable {config : SimulationConfig} {model : SystemModel} {s₀ s s₁ s₂ : Simulation}
  {specs : List RequestSpec} {report : SimulationReport} {fuel : Nat}

/-- The request is foreseen to end as the evaluator says. -/
def IsForeseen (d : Deployment) (F : Forecast) (spec : RequestSpec) (request : PendingRequest) :
    Prop :=
  request.entry = spec.entry ∧ request.service = spec.service ∧
    request.arrival = spec.arrival.later .zero ∧
    ∃ behavior, d.providedService spec.entry spec.service = .ok behavior ∧
      F.ending request.number = Evaluator.request d d.model.rates spec.entry
        (spec.arrival.later .zero) spec.inputs behavior

/-- A simulation before its first run, to which requests have been submitted, and a forecast for
it. -/
structure Prepared (s₀ : Simulation) (F : Forecast) (specs : List RequestSpec) (s : Simulation) :
    Prop where
  deployment : s.deployment = s₀.deployment
  config : s.config = s₀.config
  now : s.kernel.now = .zero
  spawned : s.kernel.spawned = specs.length
  submitted : s.submitted = specs.length
  foreseen : s.kernel.Foreseen s₀.deployment s₀.deployment.model.rates specs.length F
  pending : List.Forall₂ (fun spec request => request.number < specs.length ∧
    IsForeseen s₀.deployment F spec request) specs s.pending

lemma prepared_start (hmodel : ofModel config model = .ok s₀)
    (delay : ∀ c ∈ model.containers, ∀ r ∈ c.resources, r.scheduling = .delay) :
    ∃ F, Prepared s₀ F [] s₀ := by
  obtain ⟨resources, hresources, hdeployment, -, hpending, hsubmitted, hkernel⟩ := ofModel_ok hmodel
  have hdelays := Resources.delays_of_containers hresources delay
  refine ⟨.blank, rfl, rfl, by rw [hkernel]; rfl, by rw [hkernel]; rfl, hsubmitted, ?_,
    by rw [hpending]; exact .nil⟩
  rw [hkernel]
  refine Kernel.initial_foreseen _ rfl rfl ?_
  rw [hdeployment]
  exact hdelays

/-- A request without chance that is submitted is foreseen as well. -/
lemma Prepared.submit {F : Forecast} (h : Prepared s₀ F specs s)
    (deterministic : s₀.deployment.model.isDeterministic = true) {spec : RequestSpec}
    (inputs : VariableUsage.areDeterministic spec.inputs = true)
    (nan : spec.arrival.seconds.isNaN = false) {request : PendingRequest}
    (hsubmit : s.submit spec = .ok (request, s₁)) : ∃ F', Prepared s₀ F' (specs ++ [spec]) s₁ := by
  obtain ⟨behavior, hprovided, hrequest, hs₁⟩ := submit_ok hsubmit
  rw [h.deployment] at hprovided
  rw [h.now, h.submitted] at hrequest hs₁
  obtain ⟨harrival, hpos⟩ := SimTime.later_zero_spec nan
  let a := ofRequest specs.length spec.entry (spec.arrival.later .zero) spec.inputs behavior
  have hdeterministic : a.Deterministic := by
    refine ⟨?_, by simp [a, ofRequest, VariableStack.empty], Frame.empty_deterministic 0⟩
    intro task htask
    simp only [a, ofRequest, List.mem_cons, List.not_mem_nil, or_false] at htask
    rcases htask with rfl | rfl | rfl
    · trivial
    · exact inputs
    · exact Deployment.providedService_deterministic deterministic hprovided
  have hawake : a.Awake := ofRequest_awake _ _ _ _ _
  have hforeseen := Kernel.spawn_foreseen h.foreseen h.spawned.symm (.ofRequest _ _ _ _ _) hawake rfl
    hdeterministic
  have hlength : (specs ++ [spec]).length = specs.length + 1 := List.length_append
  have hending := ofRequest_ending s₀.deployment s₀.deployment.model.rates specs.length spec.entry
    harrival hpos spec.inputs behavior
  refine ⟨F.enters specs.length (a.ending s₀.deployment s₀.deployment.model.rates s.kernel.now),
    by rw [hs₁]; exact h.deployment, by rw [hs₁]; exact h.config, by rw [hs₁]; exact h.now,
    ?_, ?_, ?_, ?_⟩
  · rw [hs₁, hlength, ← h.spawned]
    rfl
  · rw [hs₁, hlength]
  · rw [hs₁, hlength]
    exact hforeseen
  · rw [hs₁, hlength]
    refine List.rel_append (h.pending.imp ?_) (.cons ?_ .nil)
    · rintro spec' request' ⟨hnumber, hentry, hservice, harrival', behavior', hprovided', hsame⟩
      refine ⟨hnumber.trans (Nat.lt_succ_self _), hentry, hservice, harrival', behavior',
        hprovided', ?_⟩
      exact (if_neg (Nat.ne_of_lt hnumber)).trans hsame
    · rw [hrequest]
      refine ⟨Nat.lt_succ_self _, rfl, rfl, rfl, behavior, hprovided, ?_⟩
      refine (if_pos rfl).trans ?_
      rw [h.now]
      exact hending

/-- **Requests end as evaluated.**  In a model in which every resource is a pure delay and nothing
is left to chance, requests are submitted to a fresh simulation.  When its first run returns, every
request has ended as the evaluator says, at the evaluated time and with the evaluated values. -/
theorem requests_end_as_evaluated (hmodel : ofModel config model = .ok s₀)
    (unlimited : config.stopTime = none)
    (delay : ∀ c ∈ model.containers, ∀ r ∈ c.resources, r.scheduling = .delay)
    (deterministic : model.isDeterministic = true)
    (hspecs : ∀ spec ∈ specs, VariableUsage.areDeterministic spec.inputs = true ∧
      spec.arrival.seconds.isNaN = false)
    (hsubmit : submitAll specs s₀ = .ok s₁) (hrun : s₁.run fuel = some (report, s₂)) :
    List.Forall₂ (fun spec outcome => outcome.IsEvaluated s₀.deployment spec) specs
      report.requests := by
  obtain ⟨-, -, hdeployment, hconfig, -⟩ := ofModel_ok hmodel
  have hdeterministic : s₀.deployment.model.isDeterministic = true := hdeployment ▸ deterministic
  obtain ⟨F, h⟩ : ∃ F, Prepared s₀ F specs s₁ := by
    refine submitAll_induction (P := fun specs s => ∃ F, Prepared s₀ F specs s)
      (prepared_start hmodel delay) ?_ hsubmit
    rintro before spec request s s' hspec ⟨F, h⟩ hsubmit
    exact h.submit hdeterministic (hspecs spec hspec).1 (hspecs spec hspec).2 hsubmit
  have hstop : s₁.config.stopTime = none := by rw [h.config, hconfig, unlimited]
  obtain ⟨k, -, -, hkernel, rfl, -⟩ := run_ok hrun
  rw [hstop, h.deployment] at hkernel
  have hstart := Kernel.mapWorld_foreseen
    (f := (·.note (.runStarted s₁.pending.length s₁.config.seed))) h.foreseen
    ((Environment.Steady.refl _).note _)
  have hends := Kernel.run_foreseen hdeterministic hstart (le_of_eq h.spawned.symm) hkernel
  simp only [Simulation.report]
  rw [List.forall₂_map_right_iff]
  refine h.pending.imp ?_
  rintro spec request ⟨hnumber, hentry, hservice, harrival, behavior, hprovided, hforeseen⟩
  obtain ⟨c, hc, hending⟩ := hends request.number hnumber
  refine ⟨behavior, c.ending, hprovided, hentry, hservice, harrival, ?_, ?_⟩
  · rw [← hforeseen, hending]
  · simp only [outcome, Kernel.fate, hc]
    exact c.ending_tells

/-- Two requests that overlap, each of which forks two demands and waits for them. -/
theorem requests_end_as_evaluated_forking :
    ∃ (model : SystemModel) (specs : List RequestSpec) (s₀ s₁ s₂ : Simulation)
      (report : SimulationReport), ofModel .default model = .ok s₀ ∧
      (∀ c ∈ model.containers, ∀ r ∈ c.resources, r.scheduling = .delay) ∧
      model.isDeterministic = true ∧ specs.length = 2 ∧
      (∀ spec ∈ specs, VariableUsage.areDeterministic spec.inputs = true ∧
        spec.arrival.seconds.isNaN = false) ∧
      submitAll specs s₀ = .ok s₁ ∧ s₁.run 200 = some (report, s₂) ∧
      List.Forall₂ (fun spec outcome => outcome.IsEvaluated s₀.deployment spec) specs
        report.requests := by
  let work : Behavior := ⟨"work", [⟨"w0", "", some "w1", .start⟩,
    ⟨"w1", "", some "w2", .internal [⟨"cpu", ⟨"2", .literal (.int 2)⟩⟩]⟩, ⟨"w2", "", none, .stop⟩]⟩
  let serve : Behavior := ⟨"serve", [⟨"s0", "", some "s1", .start⟩,
    ⟨"s1", "", some "s2", .fork [] [work, work]⟩, ⟨"s2", "", none, .stop⟩]⟩
  let model : SystemModel := ⟨"", [⟨"C", "", [⟨"serve", serve⟩]⟩], [⟨"A", "", "C"⟩], [],
    [⟨"host", "", [⟨"cpu", 1, 1, .delay⟩]⟩], [⟨"A", "host"⟩], []⟩
  let specs : List RequestSpec :=
    [⟨"A", "serve", [], .ofSeconds 1⟩, ⟨"A", "serve", [], .ofSeconds 2⟩]
  have hreturns : ((ofModel .default model).toOption.bind fun s₀ =>
      (submitAll specs s₀).toOption.bind fun s₁ => (s₁.run 200).map fun _ => ()) = some () := by
    decide +kernel
  have delay : ∀ c ∈ model.containers, ∀ r ∈ c.resources, r.scheduling = .delay := by decide +kernel
  have deterministic : model.isDeterministic = true := by decide +kernel
  have hspecs : ∀ spec ∈ specs, VariableUsage.areDeterministic spec.inputs = true ∧
      spec.arrival.seconds.isNaN = false := by decide +kernel
  obtain ⟨s₀, s₁, report, s₂, hmodel, hsubmit, hrun, -⟩ := exists_run hreturns
  exact ⟨model, specs, s₀, s₁, s₂, report, hmodel, delay, deterministic, rfl, hspecs, hsubmit, hrun,
    requests_end_as_evaluated hmodel rfl delay deterministic hspecs hsubmit hrun⟩

end Simulation

end ServiceSim

import ServiceSim.Proofs.Interpreter.Arrivals
import ServiceSim.Proofs.Simulation.Chronicle

/-!
# Requests begin in the order of their arrivals

Requests are submitted to a fresh simulation, in any order of their arrivals and with any behaviors.
In its first run they begin in the order of their arrivals, and of submission where the arrivals are
equal, each of them at its arrival (`requests_begin_in_order`).  What they fork, what they demand and
how they end has no influence on this.
-/

namespace ServiceSim

open Activity

/-- Notes how requests begin. -/
def Openings.observer : Observer Openings := ⟨.empty, fun _ k _ l => l.record k⟩

namespace Simulation

variable {config : SimulationConfig} {model : SystemModel} {s₀ s s₁ : Simulation}
  {specs : List RequestSpec} {spec : RequestSpec} {request : PendingRequest} {fuel : Nat}
  {report : SimulationReport}

/-! ## Before the first run -/

/-- A simulation to which requests have been submitted, and that has not run. -/
structure IsFresh (specs : List RequestSpec) (s : Simulation) : Prop where
  now : s.kernel.now = .zero
  running : s.kernel.running = none
  ready : s.kernel.ready = []
  parked : s.kernel.parked = []
  blocked : s.kernel.blocked = []
  spawned : s.kernel.spawned = specs.length
  submitted : s.submitted = specs.length
  queued : s.kernel.Queued
  disciplined : s.kernel.Disciplined
  incoming : s.kernel.incoming.map Prod.fst = List.range specs.length
  requests : ∀ p ∈ s.kernel.incoming, ∃ spec behavior, specs[p.1]? = some spec ∧
    p.2 = ofRequest p.1 spec.entry spec.arrivesAt spec.inputs behavior

lemma isFresh_start (hmodel : ofModel config model = .ok s₀) : IsFresh [] s₀ := by
  obtain ⟨resources, -, -, -, -, hsubmitted, hkernel⟩ := ofModel_ok hmodel
  refine ⟨?_, ?_, ?_, ?_, ?_, ?_, hsubmitted, ofModel_queued hmodel, ?_, ?_, ?_⟩
  all_goals rw [hkernel]
  any_goals rfl
  · exact Kernel.initial_disciplined _ rfl
  · simp [Kernel.initial]

lemma IsFresh.submit (h : IsFresh specs s) (hsubmit : s.submit spec = .ok (request, s₁)) :
    IsFresh (specs ++ [spec]) s₁ := by
  obtain ⟨behavior, -, -, rfl⟩ := submit_ok hsubmit
  rw [h.now, h.submitted]
  have hlength : (specs ++ [spec]).length = specs.length + 1 := List.length_append
  refine ⟨h.now, h.running, h.ready, h.parked, h.blocked, ?_, hlength.symm,
    Kernel.spawn_queued h.queued (ofRequest_awake _ _ _ _ _) rfl,
    Kernel.event_disciplined (d := s.deployment) (.enters (.ofRequest _ _ _ _ _)) h.disciplined,
    ?_, ?_⟩
  · rw [hlength, ← h.spawned]
    rfl
  · rw [hlength, List.range_succ, ← h.incoming, ← h.spawned]
    exact List.map_append
  · intro p hp
    rcases List.mem_append.mp hp with hp | hp
    · obtain ⟨spec', behavior', hspec', htask⟩ := h.requests p hp
      refine ⟨spec', behavior', ?_, htask⟩
      rw [List.getElem?_append_left (List.getElem?_eq_some_iff.mp hspec').1]
      exact hspec'
    · rw [List.mem_singleton.mp hp, h.spawned]
      exact ⟨spec, behavior, List.getElem?_concat_length, rfl⟩

lemma IsFresh.agenda (h : IsFresh specs s) :
    s.started.agenda = Kernel.appointed .zero s.kernel.incoming := by
  simp only [started, Kernel.mapWorld, Kernel.agenda, Kernel.others, Kernel.appointed, h.running,
    h.ready, h.parked, h.now, Option.toList_none, List.map_nil, List.nil_append, List.append_nil]

/-- Every process of a fresh simulation is a request that has not arrived. -/
lemma IsFresh.mem_agenda (h : IsFresh specs s) {x : Appointment Activity}
    (hx : x ∈ s.started.agenda) : x.time = .zero ∧ x.task.IsArriving ∧
      ∃ spec, specs[x.process]? = some spec ∧ x.task.IsExpected spec.arrivesAt := by
  rw [h.agenda] at hx
  obtain ⟨p, hp, rfl⟩ := List.mem_map.mp hx
  obtain ⟨spec, behavior, hspec, htask⟩ := h.requests p hp
  have hexpected : p.2.IsExpected spec.arrivesAt := ⟨_, _, by rw [htask]; rfl⟩
  have hsound : p.2.IsSound := htask ▸ (Enters.ofRequest _ _ _ _ _).sound
  exact ⟨rfl, hsound.arriving (.inl ⟨_, hexpected⟩), spec, hspec, hexpected⟩

/-- All requests of a fresh simulation are expected. -/
lemma IsFresh.expects (h : IsFresh specs s) (stop : Option SimTime) :
    s.started.Expects specs stop [] := by
  refine ⟨Kernel.mapWorld_queued h.queued ((Environment.Steady.refl _).note _),
    Kernel.event_disciplined (d := s.deployment) (.answers _ rfl) h.disciplined, ?_, ?_, ?_, ?_, ?_,
    ?_, .nil, by simp, by simp, ?_⟩
  · change SimTime.zero ≤ s.kernel.now ∧ ∀ t ∈ stop, s.kernel.now ≤ SimTime.zero.later t
    rw [h.now]
    exact ⟨le_refl _, fun t _ => SimTime.le_later_left _ t⟩
  · intro p hp n hn
    rcases (Kernel.mem_processes p).mp hp with ⟨time, hx⟩ | hblocked
    · rw [h.agenda] at hx
      obtain ⟨q, hq, hpq⟩ := List.mem_map.mp hx
      obtain ⟨spec, behavior, -, htask⟩ := h.requests q hq
      injection hpq with hid htask'
      rw [← htask', htask] at hn
      injection hn with hn
      exact hn.symm.trans hid
    · exact absurd (h.blocked ▸ hblocked) (List.not_mem_nil)
  · intro x hx _
    obtain ⟨htime, -, spec, hspec, hexpected⟩ := h.mem_agenda hx
    exact ⟨spec, hspec, htime ▸ .expected hexpected⟩
  · intro q hq
    exact absurd (h.blocked ▸ hq) (List.not_mem_nil)
  · have hids : s.kernel.incoming.Pairwise fun p q => p.1 < q.1 := by
      rw [← List.pairwise_map (f := Prod.fst) (R := (· < ·)), h.incoming]
      exact List.pairwise_lt_range
    rw [Kernel.InOrder, h.agenda]
    exact List.pairwise_map.mpr (hids.imp fun hlt _ _ _ => hlt)
  · intro x _ _ _ y hy _ harrived
    obtain ⟨-, -, spec, -, hexpected⟩ := h.mem_agenda hy
    exact absurd hexpected (harrived.not_expected _)
  · intro n hn
    right
    have hmem : n ∈ s.kernel.incoming.map Prod.fst := by
      rw [h.incoming]
      exact List.mem_range.mpr hn
    obtain ⟨p, hp, rfl⟩ := List.mem_map.mp hmem
    have hx : (⟨p.1, p.2, .zero⟩ : Appointment Activity) ∈ s.started.agenda := by
      rw [h.agenda]
      exact List.mem_map_of_mem hp
    exact ⟨_, hx, rfl, (h.mem_agenda hx).2.1⟩

lemma IsFresh.acts (h : IsFresh specs s) : s.started.Acts .empty := by
  refine ⟨.refl _, fun p hp harriving => ?_, by simp [Openings.empty]⟩
  rcases (Kernel.mem_processes p).mp hp with ⟨time, hx⟩ | hblocked
  · exact absurd (h.mem_agenda hx).2.1 harriving
  · exact absurd (h.blocked ▸ hblocked) (List.not_mem_nil)

/-! ## The first run -/

/-- **The requests of a run begin in the order of their arrivals**, as far as they arrive until it
stops. -/
structure BeginsInOrder (specs : List RequestSpec) (stop : Option SimTime) (l : Openings)
    (s : Simulation) : Prop where
  /-- Their inputs are bound in the order of their arrivals, and of submission where these are
  equal. -/
  inOrder : l.bound.Pairwise Openings.Precedes
  /-- This happens at their arrivals. -/
  onTime : ∀ x ∈ l.bound, ∃ spec, specs[x.1]? = some spec ∧ x.2 = spec.arrivesAt
  /-- Only those never begin that arrive later than the start and than the time to stop at. -/
  never : ∀ n spec, specs[n]? = some spec →
    (n ∉ l.bound.map Prod.fst ↔ .zero < spec.arrivesAt ∧ Kernel.beyond spec.arrivesAt stop = true)
  /-- They enter their first actions in the same order and at the same times. -/
  actions : l.acted.Sublist l.bound
  /-- Those that enter none end at this time. -/
  ended : ∀ x ∈ l.bound, x ∈ l.acted ∨
    ∃ c, (x.1, c) ∈ s.kernel.world.completions ∧ c.time = x.2

/-- **Requests begin in the order of their arrivals.**  Whatever requests have been submitted to a fresh
simulation, with arrivals that are numbers: in its first run their inputs are bound and their first
actions are entered in the order of arrival and submission, at the times of arrival, and those never
begin that the run does not reach. -/
theorem requests_begin_in_order (hmodel : ofModel config model = .ok s₀)
    (hsubmit : submitAll specs s₀ = .ok s)
    (numbers : ∀ spec ∈ specs, spec.arrival.seconds.isNaN = false)
    (hrun : s.run fuel = some (report, s₁)) :
    BeginsInOrder specs (s.config.stopTime.map .ofSeconds)
      (Openings.observer.watch s.deployment (s.config.stopTime.map .ofSeconds) fuel s.started .empty)
      s₁ := by
  have hfresh : IsFresh specs s := submitAll_induction (isFresh_start hmodel)
    (fun _ _ _ _ _ _ hbefore hsubmit => hbefore.submit hsubmit) hsubmit
  obtain ⟨kernel, env, hsteady, hkernel, -, rfl⟩ := run_ok hrun
  refine Observer.watch_induction (o := Openings.observer)
    (P := fun k l => k.Expects specs (s.config.stopTime.map .ofSeconds) l.bound ∧ k.Acts l)
    (Q := fun k l => ∀ env, k.world.Steady env → BeginsInOrder specs
      (s.config.stopTime.map .ofSeconds) l { s with kernel := { k with world := env }, pending := [] })
    ⟨hfresh.expects _, hfresh.acts⟩ ?_ ?_ hkernel env hsteady
  · rintro k l k' ⟨hexpects, hacts⟩ hstep
    exact Kernel.step_opens numbers hexpects hacts hstep
  · rintro k l k' ⟨hexpects, hacts⟩ hstep env hsteady
    have quiet := (Kernel.step_ends hexpects.queued.joined.order hstep).1
    refine ⟨hexpects.sorted, fun x hx => ?_, fun n spec hspec => hexpects.never hstep hspec,
      hacts.actions, ?_⟩
    · obtain ⟨spec, hspec, htime, -⟩ := hexpects.timed x hx
      exact ⟨spec, hspec, htime⟩
    · change ∀ x ∈ l.bound, x ∈ l.acted ∨ ∃ c, (x.1, c) ∈ env.completions ∧ c.time = x.2
      rw [hsteady.completions, quiet.completions]
      exact hacts.idle hexpects quiet.idle

/-- Five requests whose processes fork and contend for a server, submitted in another order than that
of their arrivals, one of them with an arrival before the start.  The inputs of one cannot be bound,
so it enters no action, and one arrives after the run has stopped. -/
theorem requests_begin_in_order_contending :
    ∃ (model : SystemModel) (s₀ s s₁ : Simulation) (specs : List RequestSpec)
      (report : SimulationReport),
      ofModel ⟨42, some 5, false⟩ model = .ok s₀ ∧ submitAll specs s₀ = .ok s ∧
      (∀ spec ∈ specs, spec.arrival.seconds.isNaN = false) ∧ s.run 300 = some (report, s₁) ∧
      (let l := Openings.observer.watch s.deployment (s.config.stopTime.map .ofSeconds) 300 s.started
        .empty
      l.bound.map Prod.fst = [1, 3, 0, 2] ∧ l.acted.map Prod.fst = [1, 3, 2] ∧
        BeginsInOrder specs (s.config.stopTime.map .ofSeconds) l s₁) := by
  let work : Behavior := ⟨"work", [⟨"w0", "", some "w1", .start⟩,
    ⟨"w1", "", some "w2", .internal [⟨"cpu", ⟨"2", .literal (.int 2)⟩⟩]⟩, ⟨"w2", "", none, .stop⟩]⟩
  let serve : Behavior := ⟨"serve", [⟨"s0", "", some "s1", .start⟩,
    ⟨"s1", "", some "s2", .fork [work] [work]⟩, ⟨"s2", "", none, .stop⟩]⟩
  let model : SystemModel := ⟨"", [⟨"C", "", [⟨"serve", serve⟩]⟩], [⟨"A", "", "C"⟩], [],
    [⟨"host", "", [⟨"cpu", 1, 1, .fcfs⟩]⟩], [⟨"A", "host"⟩], []⟩
  let specs : List RequestSpec := [
    ⟨"A", "serve", [.single "x" .value (.variable_ "unknown")], .ofSeconds 1⟩,
    ⟨"A", "serve", [], .ofSeconds 0⟩, ⟨"A", "serve", [], .ofSeconds 1⟩,
    ⟨"A", "serve", [], .ofSeconds (-2)⟩, ⟨"A", "serve", [], .ofSeconds 9⟩]
  have numbers : ∀ spec ∈ specs, spec.arrival.seconds.isNaN = false := by decide +kernel
  have hopenings : ((ofModel ⟨42, some 5, false⟩ model).toOption.bind fun s₀ =>
      (submitAll specs s₀).toOption.bind fun s => (s.run 300).map fun _ =>
        let l := Openings.observer.watch s.deployment (s.config.stopTime.map .ofSeconds) 300
          s.started .empty
        (l.bound.map Prod.fst, l.acted.map Prod.fst)) = some ([1, 3, 0, 2], [1, 3, 2]) := by
    decide +kernel
  obtain ⟨s₀, s, report, s₁, hmodel, hsubmit, hrun, hbegun⟩ := exists_run hopenings
  simp only [Prod.mk.injEq] at hbegun
  exact ⟨model, s₀, s, s₁, specs, report, hmodel, hsubmit, numbers, hrun, hbegun.1, hbegun.2,
    requests_begin_in_order hmodel hsubmit numbers hrun⟩

end Simulation

end ServiceSim

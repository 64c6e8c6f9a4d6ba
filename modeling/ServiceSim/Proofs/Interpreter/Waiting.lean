import ServiceSim.Proofs.Interpreter.Arrivals
import ServiceSim.Proofs.Number.Order

/-!
# Waiting for an arrival

A request is submitted at some time of the clock, and its process waits from then on for as long as
the arrival lies ahead.  `Admission.beginning` is the time at which this wait is over: the clock is
added to the difference of arrival and clock.  The sum is the arrival if the clock is at the start
(`beginning_of_start`) or the arrival (`beginning_of_arrived`).  Otherwise it is rounded, and it may
lie on either side of the arrival.

Whatever else runs, a request begins at exactly this time, no matter how many runs lie between
(`Kernel.Attends`).  It ends at this time at the earliest, because a process that serves a request
has begun or ends in the turn in which it begins (`Attends.stands`).
-/

namespace ServiceSim

open Activity

/-- A request that has been accepted. -/
structure Admission where
  /-- The request as it will be reported. -/
  request : PendingRequest
  /-- The request as it has been submitted. -/
  spec : RequestSpec
  /-- The clock at that time. -/
  clock : SimTime

namespace Admission

variable {x : Admission} {a : Activity} {time : SimTime}

/-- When the wait for the arrival is over. -/
def beginning (x : Admission) : SimTime := x.clock.passing (x.request.arrival.since x.clock)

lemma beginning_of_not_pos (h : ¬ 0 < x.request.arrival.since x.clock) : x.beginning = x.clock := by
  rw [beginning, SimTime.passing, SimTime.after, if_neg h]
  exact SimTime.later_eq_left (le_refl _)

/-- Nobody waits who has arrived. -/
lemma beginning_of_arrived (h : x.request.arrival = x.clock) : x.beginning = x.request.arrival := by
  rw [h]
  refine beginning_of_not_pos ?_
  rw [h]
  exact Binary64.not_pos_sub_self _

/-- Nobody waits for an arrival that is no number. -/
lemma beginning_of_undefined (h : ¬ Binary64.IsDefined x.request.arrival.seconds) :
    x.beginning = x.clock :=
  beginning_of_not_pos fun hpos => Binary64.sub_undefined h x.clock.seconds
    (Binary64.defined_of_le (Binary64.le_of_lt hpos)).2

/-- A wait from the start is over at the arrival. -/
lemma beginning_of_start (clock : x.clock = .zero)
    (clamped : x.request.arrival = x.spec.arrival.later x.clock)
    (number : Binary64.IsDefined x.spec.arrival.seconds) : x.beginning = x.request.arrival := by
  obtain ⟨hnumber, hzero⟩ := SimTime.later_zero_spec number
  rw [beginning, clamped, clock]
  exact SimTime.zero_passing_since hnumber hzero

/-- An activity serves a request that has not begun, and goes on at a time: at the time of its
submission, and then when its wait is over. -/
inductive Awaits (x : Admission) (a : Activity) : SimTime → Prop where
  | expected : a.IsExpected x.request.arrival → Awaits x a x.clock
  | arrived : a.HasArrived → Awaits x a x.beginning

lemma Awaits.of_expected {arrival : SimTime} (h : x.Awaits a time) (expected : a.IsExpected arrival) :
    arrival = x.request.arrival ∧ time = x.clock := by
  cases h with
  | expected hsame =>
    obtain ⟨_, _, htasks⟩ := expected
    obtain ⟨_, _, htasks'⟩ := hsame
    rw [htasks] at htasks'
    cases htasks'
    exact ⟨rfl, rfl⟩
  | arrived harrived => exact absurd expected (harrived.not_expected arrival)

lemma Awaits.of_arrived (h : x.Awaits a time) (arrived : a.HasArrived) : time = x.beginning := by
  cases h with
  | expected hexpected => exact absurd hexpected (arrived.not_expected _)
  | arrived => rfl

end Admission

/-! ## What a turn adds -/

namespace Activity

variable {a : Activity} {l : Openings} {now : SimTime} {n : Nat}

lemma bound_subset_turn : l.bound ⊆ (l.turn now a).bound := by
  rcases openings_cases l now a with h | ⟨n, -, -, h⟩ | ⟨n, -, -, -, h⟩
  all_goals rw [h]
  · exact List.Subset.refl _
  · exact List.subset_append_left _ _
  · exact List.Subset.refl _

lemma acted_subset_turn : l.acted ⊆ (l.turn now a).acted := by
  rcases openings_cases l now a with h | ⟨n, -, -, h⟩ | ⟨n, -, -, -, h⟩
  all_goals rw [h]
  · exact List.Subset.refl _
  · exact List.Subset.refl _
  · exact List.subset_append_left _ _

/-- Who enters an action is noted to have acted. -/
lemma acted_of_enters (role : a.role = .request n) (h : a.EntersAction) :
    n ∈ (l.turn now a).acted.map Prod.fst := by
  by_cases hacted : n ∈ l.acted.map Prod.fst
  · exact List.map_subset _ acted_subset_turn hacted
  · rw [openings_of_acting role h hacted]
    simp

/-- What has been bound in a turn. -/
lemma mem_bound_turn (sound : a.IsSound) {q : Nat × SimTime} (hq : q ∈ (l.turn now a).bound) :
    q ∈ l.bound ∨ ∃ n, a.role = .request n ∧ a.HasArrived ∧ q = (n, now) := by
  rcases openings_cases l now a with h | ⟨n, hrole, ⟨inputs, rest, htasks⟩, h⟩ | ⟨n, -, -, -, h⟩
  all_goals rw [h] at hq
  · exact .inl hq
  · rcases List.mem_append.mp hq with hq | hq
    · exact .inl hq
    · exact .inr ⟨n, hrole, sound.hasArrived htasks, List.mem_singleton.mp hq⟩
  · exact .inl hq

/-- Who has acted in a turn. -/
lemma mem_acted_turn {q : Nat × SimTime} (hq : q ∈ (l.turn now a).acted) :
    q ∈ l.acted ∨
      ∃ n, a.role = .request n ∧ a.EntersAction ∧ n ∉ l.acted.map Prod.fst ∧ q = (n, now) := by
  rcases openings_cases l now a with h | ⟨n, -, -, h⟩ | ⟨n, hrole, henters, hfirst, h⟩
  all_goals rw [h] at hq
  · exact .inl hq
  · exact .inl hq
  · rcases List.mem_append.mp hq with hq | hq
    · exact .inl hq
    · exact .inr ⟨n, hrole, henters, hfirst, List.mem_singleton.mp hq⟩

/-- A turn completes at most the request that it serves, and then ends. -/
lemma turn_completions (d : Deployment) (now : SimTime) (id : ProcessId) (env : Environment)
    (settled : a.Settled) : ∀ q ∈ (a.turn d now id env).world.completions, q ∈ env.completions ∨
      a.role = .request q.1 ∧ q.2.time = now ∧ (a.turn d now id env).next.goesOn id = [] := by
  intro q hq
  unfold turn at hq ⊢
  rcases advance_or_ends d now id env settled with
    ⟨turn, b, hgoes, -, -, hsame⟩ | ⟨env', c, hends, htime, hsame⟩
  · rw [hgoes] at hq
    exact .inl (hsame ▸ hq)
  · rw [hends] at hq ⊢
    rcases Kernel.report_completions a env' c with ⟨n, hrole, hreport⟩ | ⟨-, hreport⟩
    · rw [hreport, hsame] at hq
      rcases List.mem_cons.mp hq with rfl | hq
      · exact .inr ⟨hrole, htime, by rw [report_ends.2]; rfl⟩
      · exact .inl hq
    · rw [hreport, hsame] at hq
      exact .inl hq

end Activity

namespace Kernel

variable {d : Deployment} {admitted : List Admission} {stop : Option SimTime}
  {k k' : Kernel Environment Activity} {l : Openings} {id : ProcessId} {a : Activity} {n : Nat}

/-! ## Requests that have been accepted -/

/-- **Requests begin when their waits are over**, and end later than that or at once. -/
structure Attends (admitted : List Admission) (k : Kernel Environment Activity) (l : Openings) :
    Prop where
  queued : k.Queued
  disciplined : k.Disciplined
  upcoming : ∀ y ∈ k.agenda, y.task.IsArriving →
    ∃ x ∈ admitted, y.task.role = .request x.request.number ∧ x.Awaits y.task y.time
  awake : ∀ q ∈ k.blocked, ¬ q.2.IsArriving
  begun : ∀ p ∈ k.processes, ¬ p.2.IsArriving → ∀ n, p.2.role = .request n →
    n ∈ l.acted.map Prod.fst ∨ k.running = some p ∧ p.2.IsOpening ∧ (n, k.now) ∈ l.bound
  onTime : ∀ q ∈ l.bound, q.2 ≤ k.now ∧ ∃ x ∈ admitted, q = (x.request.number, x.beginning)
  actions : l.acted ⊆ l.bound
  completed : ∀ q ∈ k.world.completions, ∃ time, (q.1, time) ∈ l.bound ∧ time ≤ q.2.time

lemma Quiet.attends (h : k.Attends admitted l) (quiet : Quiet (program d) k k') :
    k'.Attends admitted l := by
  refine ⟨quiet.queued h.queued, quiet.disciplined h.disciplined, quiet.agenda ▸ h.upcoming,
    quiet.blocked ▸ h.awake, fun p hp harriving n hrole => ?_, fun q hq => ?_, h.actions,
    quiet.completions ▸ h.completed⟩
  · rcases h.begun p (quiet.processes ▸ hp) harriving n hrole with hacted | ⟨hruns, -⟩
    · exact .inl hacted
    · rw [quiet.idle] at hruns
      cases hruns
  · exact ⟨(h.onTime q hq).1.trans quiet.now, (h.onTime q hq).2⟩

section Turns

variable (h : k.Attends admitted l) (runs : k.running = some (id, a))

include h runs

/-- The request that runs and has not begun. -/
lemma Attends.runs_awaiting (upcoming : (∃ time, a.IsExpected time) ∨ a.HasArrived) :
    a.IsArriving ∧
      ∃ x ∈ admitted, a.role = .request x.request.number ∧ x.Awaits a k.now := by
  have harriving := (h.disciplined.sound _ (running_mem runs)).arriving upcoming
  exact ⟨harriving, h.upcoming _ (running_agenda runs) harriving⟩

/-- **Whoever runs for a request has begun by the end of its turn**, unless it begins to wait. -/
lemma Attends.stands (role : a.role = .request n) (expected : ¬ ∃ time, a.IsExpected time) :
    ∃ time, (n, time) ∈ (l.turn k.now a).bound ∧ time ≤ k.now := by
  by_cases harrived : a.HasArrived
  · rw [openings_of_arrived role harrived]
    exact ⟨k.now, by simp, le_refl _⟩
  have harriving : ¬ a.IsArriving := fun harriving => harriving.upcoming.elim expected harrived
  rcases h.begun _ (running_mem runs) harriving n role with hacted | ⟨-, -, hbound⟩
  · obtain ⟨q, hq, rfl⟩ := List.mem_map.mp hacted
    exact ⟨q.2, bound_subset_turn (h.actions hq), (h.onTime q (h.actions hq)).1⟩
  · exact ⟨k.now, bound_subset_turn hbound, le_refl _⟩

variable (turned : Turned k k' id (a.turn d k.now id k.world))

include turned

/-- Who has not begun after a turn: a bystander, or the process itself, which has begun to wait. -/
lemma Turned.attends_upcoming : ∀ y ∈ k'.agenda, y.task.IsArriving →
    ∃ x ∈ admitted, y.task.role = .request x.request.number ∧ x.Awaits y.task y.time := by
  intro y hy harriving
  rcases turned.mem_upcoming h.disciplined h.awake runs hy harriving with
    hy | ⟨-, hsame, harrived, arrival, hexpected, htime⟩
  · exact h.upcoming y (mem_agenda_of_others hy) harriving
  · obtain ⟨-, x, hx, hrole, hawaits⟩ := h.runs_awaiting runs (.inl ⟨arrival, hexpected⟩)
    obtain ⟨rfl, hnow⟩ := hawaits.of_expected hexpected
    refine ⟨x, hx, hsame.trans hrole, ?_⟩
    rw [htime, hnow]
    exact .arrived harrived

/-- The process that runs has entered its first action after its turn, or it is about to. -/
lemma Turned.attends_self {p : ProcessId × Activity}
    (hp : p ∈ (a.turn d k.now id k.world).next.goesOn id) (arriving : ¬ p.2.IsArriving)
    (role : a.role = .request n) : n ∈ (l.turn k.now a).acted.map Prod.fst ∨
      k'.running = some p ∧ p.2.IsOpening ∧ (n, k.now) ∈ (l.turn k.now a).bound := by
  have hsound := h.disciplined.sound _ (running_mem runs)
  -- Binding the inputs and entering the behavior do not give up control.
  have hopening : ((∃ env b, a.turn d k.now id k.world = ⟨env, [], [], .proceed b⟩ ∧ b.IsOpening ∧
      b.role = a.role) ∨ ∃ env c, a.turn d k.now id k.world = a.report env c ∧ c.time = k.now) →
      k'.running = some p ∧ p.2.IsOpening := by
    rintro (⟨env, b, hturn, hb, -⟩ | ⟨env, c, hturn, -⟩)
    · rw [hturn] at hp
      rw [List.mem_singleton.mp hp]
      refine ⟨?_, hb⟩
      rw [turned.applied, hturn]
      rfl
    · rw [hturn, report_ends.2] at hp
      cases hp
  by_cases hexpected : ∃ time, a.IsExpected time
  · obtain ⟨time, hexpected⟩ := hexpected
    obtain ⟨b, hturn, hb, -⟩ := turn_expected d k.now id k.world hexpected
    have hpsound := (turn_sound d k.now id hsound h.disciplined.faultless).2.1 p hp
    rw [hturn] at hp
    rw [List.mem_singleton.mp hp] at arriving hpsound
    exact absurd (hpsound.arriving (.inr hb)) arriving
  by_cases harrived : a.HasArrived
  · obtain ⟨hruns, hp⟩ := hopening (turn_arrived d k.now id k.world harrived)
    refine .inr ⟨hruns, hp, ?_⟩
    rw [openings_of_arrived role harrived]
    simp
  have harriving : ¬ a.IsArriving := fun harriving => harriving.upcoming.elim hexpected harrived
  rcases h.begun _ (running_mem runs) harriving n role with hacted | ⟨-, ha, hbound⟩
  · exact .inl (List.map_subset _ acted_subset_turn hacted)
  · by_cases henters : a.EntersAction
    · exact .inl (acted_of_enters role henters)
    · obtain ⟨hruns, hp⟩ := hopening (turn_opening d k.now id k.world ha henters)
      exact .inr ⟨hruns, hp, bound_subset_turn hbound⟩

lemma Turned.attends_begun : ∀ p ∈ k'.processes, ¬ p.2.IsArriving → ∀ n, p.2.role = .request n →
    n ∈ (l.turn k.now a).acted.map Prod.fst ∨
      k'.running = some p ∧ p.2.IsOpening ∧ (n, k'.now) ∈ (l.turn k.now a).bound := by
  have hsettled := h.queued.joined.settled _ (running_mem runs)
  intro p hp harriving n hrole
  rw [turned.now]
  rw [turned.processes.mem_iff, List.mem_append, List.mem_append] at hp
  rcases hp with (hp | hp) | hp
  · exact turned.attends_self h runs hp harriving
      ((turn_role d k.now id k.world hsettled p hp).symm.trans hrole)
  · exact absurd hrole (turn_spawned_role d k.now id k.world hsettled _ (mem_newborn hp).2.2 n)
  · rcases h.begun p (mem_processes_of_bystanders runs hp) harriving n hrole with hacted | ⟨hruns, -⟩
    · exact .inl (List.map_subset _ acted_subset_turn hacted)
    · rw [runs] at hruns
      injection hruns with hruns
      exact absurd (congrArg Prod.fst hruns).symm (h.queued.joined.order.bystander_ne runs hp)

omit turned in
lemma Attends.turn_onTime : ∀ q ∈ (l.turn k.now a).bound,
    q.2 ≤ k.now ∧ ∃ x ∈ admitted, q = (x.request.number, x.beginning) := by
  intro q hq
  rcases mem_bound_turn (h.disciplined.sound _ (running_mem runs)) hq with
    hq | ⟨n, hrole, harrived, rfl⟩
  · exact h.onTime q hq
  · obtain ⟨-, x, hx, hnumber, hawaits⟩ := h.runs_awaiting runs (.inr harrived)
    rw [hrole] at hnumber
    injection hnumber with hnumber
    exact ⟨le_refl _, x, hx, Prod.ext hnumber (hawaits.of_arrived harrived)⟩

omit turned in
lemma Attends.turn_actions : (l.turn k.now a).acted ⊆ (l.turn k.now a).bound := by
  intro q hq
  rcases mem_acted_turn hq with hq | ⟨n, hrole, henters, hfirst, rfl⟩
  · exact bound_subset_turn (h.actions hq)
  · -- Who has not begun enters no action.
    have harriving : ¬ a.IsArriving := by
      intro harriving
      obtain ⟨_, _, _, _, _, htasks⟩ := henters
      rcases harriving.upcoming with ⟨_, _, _, htasks'⟩ | ⟨_, _, htasks'⟩
      all_goals
        rw [htasks] at htasks'
        cases htasks'
    obtain ⟨-, -, hbound⟩ :=
      (h.begun _ (running_mem runs) harriving n hrole).resolve_left hfirst
    exact bound_subset_turn hbound

lemma Turned.attends_completed : ∀ q ∈ k'.world.completions,
    ∃ time, (q.1, time) ∈ (l.turn k.now a).bound ∧ time ≤ q.2.time := by
  have hsettled := h.queued.joined.settled _ (running_mem runs)
  intro q hq
  rw [turned.world] at hq
  rcases turn_completions d k.now id k.world hsettled q hq with hq | ⟨hrole, htime, hends⟩
  · obtain ⟨time, hbound, hle⟩ := h.completed q hq
    exact ⟨time, bound_subset_turn hbound, hle⟩
  · rw [htime]
    refine h.stands runs hrole fun ⟨arrival, hexpected⟩ => ?_
    obtain ⟨b, hturn, -⟩ := turn_expected d k.now id k.world hexpected
    rw [hturn] at hends
    cases hends

/-- **A turn lets requests begin when their waits are over.** -/
lemma Turned.attends : k'.Attends admitted (l.turn k.now a) :=
  ⟨turned.queued h.queued runs, turned.disciplined h.disciplined runs,
    turned.attends_upcoming h runs, turned.blocked_awake h.disciplined h.awake runs,
    turned.attends_begun h runs, turned.now ▸ h.turn_onTime runs, h.turn_actions runs,
    turned.attends_completed h runs⟩

end Turns

/-! ## Runs and submissions -/

/-- Every step lets requests begin when their waits are over. -/
theorem step_attends (h : k.Attends admitted l) (hstep : k.step (program d) stop = .goes k') :
    k'.Attends admitted (l.record k) := by
  rcases step_cases h.queued.joined.order hstep with quiet | ⟨id, a, runs, turned⟩
  · rw [Openings.record_idle quiet.idle]
    exact quiet.attends h
  · rw [Openings.record_running runs]
    exact turned.attends h runs

/-- What is noted outside of a run changes nothing. -/
lemma Attends.of_steady (h : k.Attends admitted l) {f : Environment → Environment}
    (steady : k.world.Steady (f k.world)) : (k.mapWorld f).Attends admitted l := by
  refine ⟨mapWorld_queued h.queued steady, ⟨mapWorld_orderly f h.disciplined.order,
    h.disciplined.faultless.of_barriers steady.barriers, h.disciplined.sound⟩, h.upcoming, h.awake,
    h.begun, h.onTime, h.actions, ?_⟩
  change ∀ q ∈ (f k.world).completions, _
  rw [steady.completions]
  exact h.completed

lemma initial_attends {env : Environment} (barriers : env.barriers = [])
    (completions : env.completions = [])
    (queued : (initial env : Kernel Environment Activity).Queued) :
    (initial env).Attends [] .empty := by
  have hnobody : ∀ p, p ∉ (initial env : Kernel Environment Activity).processes := by
    simp [initial, processes, agenda, others, appointed]
  refine ⟨queued, initial_disciplined env barriers, ?_, by simp [initial],
    fun p hp => absurd hp (hnobody p), by simp [Openings.empty], List.Subset.refl _, ?_⟩
  · simp [initial, agenda, others, appointed]
  · change ∀ q ∈ env.completions, _
    simp [completions]

/-- A request that is submitted waits for its arrival from now on. -/
lemma Attends.submit (d : Deployment) (h : k.Attends admitted l) {x : Admission}
    (behavior : Behavior) (clock : x.clock = k.now) (ha : a = .ofRequest x.request.number
      x.request.entry x.request.arrival x.spec.inputs behavior) :
    (k.spawn a).Attends (admitted ++ [x]) l := by
  have henters : a.Enters := ha ▸ .ofRequest _ _ _ _ _
  have hexpected : a.IsExpected x.request.arrival := ⟨_, _, by rw [ha]; rfl⟩
  have hrole : a.role = .request x.request.number := by rw [ha]; rfl
  have hmore : ∀ y ∈ admitted, y ∈ admitted ++ [x] := fun y hy => List.mem_append_left _ hy
  refine ⟨spawn_queued h.queued (ha ▸ ofRequest_awake _ _ _ _ _) hrole,
    event_disciplined (d := d) (.enters henters) h.disciplined, fun y hy hya => ?_, h.awake,
    fun p hp harriving => ?_, fun q hq => ?_, h.actions, h.completed⟩
  · rcases List.mem_cons.mp ((spawn_agenda a k).mem_iff.mp hy) with rfl | hy
    · exact ⟨x, by simp, hrole, clock ▸ .expected hexpected⟩
    · obtain ⟨z, hz, hserves⟩ := h.upcoming y hy hya
      exact ⟨z, hmore z hz, hserves⟩
  · rcases List.mem_cons.mp ((spawn_processes a k).mem_iff.mp hp) with rfl | hp
    · exact absurd (henters.sound.arriving (.inl ⟨_, hexpected⟩)) harriving
    · exact h.begun p hp harriving
  · obtain ⟨hle, z, hz, hsame⟩ := h.onTime q hq
    exact ⟨hle, z, hmore z hz, hsame⟩

end Kernel

end ServiceSim

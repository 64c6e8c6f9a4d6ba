import ServiceSim.Proofs.Interpreter.Reports
import ServiceSim.Proofs.Interpreter.StackDiscipline
import ServiceSim.Proofs.Kernel.Order
import ServiceSim.Proofs.Kernel.Timekeeping
import ServiceSim.Simulation.Request

/-!
# Arrivals

A request that is submitted before the start waits until it arrives, then its inputs are bound, and
then it enters its first action.  `Openings` notes the last two when they are observed.

Whatever else runs, be it requests that have begun or what they fork, requests begin in the order of
their arrivals, and in the order of submission where the arrivals are equal (`Kernel.Expects`).  This
is so because nobody ever becomes a request that has not begun: neither a process that is spawned nor
one that is woken is one (`turn_upcoming`).  Between the binding of its inputs and its first action a
request does not give up control (`Kernel.Acts`).
-/

namespace ServiceSim

/-- When a request arrives that is submitted before the start: not before it. -/
def RequestSpec.arrivesAt (spec : RequestSpec) : SimTime := spec.arrival.later .zero

/-! ## What is observed -/

/-- How requests have been observed to begin: their numbers, with the times. -/
structure Openings where
  /-- Those whose inputs have been bound, in order. -/
  bound : List (Nat × SimTime)
  /-- Those that have entered an action, in the order of their first actions. -/
  acted : List (Nat × SimTime)

namespace Openings

/-- The openings before anything happens. -/
def empty : Openings := ⟨[], []⟩

/-- The openings after a turn of an activity. -/
def turn (now : SimTime) (a : Activity) (l : Openings) : Openings :=
  match a.role, a.tasks with
  | .request n, .accept _ :: _ => { l with bound := l.bound ++ [(n, now)] }
  | .request n, .walk _ _ (_ :: _) :: _ =>
    if n ∈ l.acted.map Prod.fst then l else { l with acted := l.acted ++ [(n, now)] }
  | _, _ => l

/-- The openings after a step. -/
def record (k : Kernel Environment Activity) (l : Openings) : Openings :=
  match k.running with
  | some (_, a) => l.turn k.now a
  | none => l

/-- A request begins before another: at an earlier time, or at the same time with a lower number. -/
def Precedes (x y : Nat × SimTime) : Prop := x.2 < y.2 ∨ x.2 = y.2 ∧ x.1 < y.1

lemma record_running {k : Kernel Environment Activity} {id : ProcessId} {a : Activity}
    (runs : k.running = some (id, a)) (l : Openings) : l.record k = l.turn k.now a := by
  rw [record, runs]

lemma record_idle {k : Kernel Environment Activity} (idle : k.running = none) (l : Openings) :
    l.record k = l := by
  rw [record, idle]

end Openings

open Activity

namespace Activity

variable {a b : Activity} {entry : Entry} {env : Environment} {now : SimTime} {id : ProcessId}
  {d : Deployment} {n : Nat}

/-! ## Requests that have not begun -/

/-- The request has not arrived. -/
def IsExpected (arrival : SimTime) (a : Activity) : Prop :=
  ∃ inputs behavior, a.tasks = [.arrive arrival, .accept inputs, .invoke behavior]

/-- The request has arrived and has not begun. -/
def HasArrived (a : Activity) : Prop :=
  ∃ inputs behavior, a.tasks = [.accept inputs, .invoke behavior]

/-- A request has not begun, and goes on at a time: at the start, and then at its arrival. -/
inductive Upcoming (arrival : SimTime) (a : Activity) : SimTime → Prop where
  | expected : a.IsExpected arrival → Upcoming arrival a .zero
  | arrived : a.HasArrived → Upcoming arrival a arrival

lemma IsBalanced.not_arriving (h : a.IsBalanced entry) : ¬ a.IsArriving := by
  rintro ⟨-, -, inputs, behavior, htasks | ⟨time, htasks⟩⟩
  all_goals
    rw [IsBalanced, htasks] at h
    exact h

lemma IsArriving.upcoming (h : a.IsArriving) : (∃ time, a.IsExpected time) ∨ a.HasArrived := by
  obtain ⟨inputs, behavior, htasks | ⟨time, htasks⟩⟩ := h.tasks
  · exact .inr ⟨inputs, behavior, htasks⟩
  · exact .inl ⟨time, inputs, behavior, htasks⟩

/-- An activity that keeps the stack discipline accepts inputs only as a request that has not begun. -/
lemma IsSound.arriving (h : a.IsSound) (upcoming : (∃ time, a.IsExpected time) ∨ a.HasArrived) :
    a.IsArriving := by
  rcases h with ⟨entry, hbalanced⟩ | harriving
  · rcases upcoming with ⟨time, inputs, behavior, htasks⟩ | ⟨inputs, behavior, htasks⟩
    all_goals
      rw [IsBalanced, htasks] at hbalanced
      exact hbalanced.elim
  · exact harriving

lemma HasArrived.not_expected (h : a.HasArrived) (time : SimTime) : ¬ a.IsExpected time := by
  obtain ⟨_, _, htasks⟩ := h
  rintro ⟨_, _, htasks'⟩
  rw [htasks] at htasks'
  cases htasks'

/-- A request that has not arrived waits for its arrival. -/
lemma turn_expected (d : Deployment) (now : SimTime) (id : ProcessId) (env : Environment)
    {arrival : SimTime} (h : a.IsExpected arrival) :
    ∃ b, a.turn d now id env = ⟨env, [], [], .hold (arrival.since now) b⟩ ∧ b.HasArrived ∧
      b.role = a.role ∧ b.contexts = a.contexts := by
  obtain ⟨inputs, behavior, htasks⟩ := h
  unfold turn advance performTask
  simp only [htasks]
  exact ⟨_, rfl, ⟨inputs, behavior, rfl⟩, rfl, rfl⟩

/-- A request that has begun and not entered an action. -/
def IsOpening (a : Activity) : Prop :=
  a.tasks = [] ∨ (∃ behavior, a.tasks = [.invoke behavior]) ∨
    ∃ behavior depth, a.tasks = [.walk behavior depth behavior.chain]

/-- A request that has arrived begins: its inputs are bound, and it goes on at once or ends. -/
lemma turn_arrived (d : Deployment) (now : SimTime) (id : ProcessId) (env : Environment)
    (h : a.HasArrived) :
    (∃ env' b, a.turn d now id env = ⟨env', [], [], .proceed b⟩ ∧ b.IsOpening ∧ b.role = a.role) ∨
      ∃ env' c, a.turn d now id env = a.report env' c ∧ c.time = now := by
  obtain ⟨inputs, behavior, htasks⟩ := h
  unfold turn advance performTask acceptInputs
  simp only [htasks]
  cases env.newFrame.2.newFrame.2.bind inputs env.newFrame.1 env.newFrame.2.newFrame.1 with
  | mk failure bound =>
    cases failure with
    | none => exact .inl ⟨_, _, rfl, .inr (.inl ⟨behavior, rfl⟩), rfl⟩
    | some e => exact .inr ⟨_, _, rfl, rfl⟩

/-- The next step enters an action. -/
def EntersAction (a : Activity) : Prop :=
  ∃ behavior depth action actions rest, a.tasks = .walk behavior depth (action :: actions) :: rest

/-- A request that has begun and does not enter its first action next goes on at once or ends. -/
lemma turn_opening (d : Deployment) (now : SimTime) (id : ProcessId) (env : Environment)
    (h : a.IsOpening) (other : ¬ a.EntersAction) :
    (∃ env' b, a.turn d now id env = ⟨env', [], [], .proceed b⟩ ∧ b.IsOpening ∧ b.role = a.role) ∨
      ∃ env' c, a.turn d now id env = a.report env' c ∧ c.time = now := by
  rcases h with htasks | ⟨behavior, htasks⟩ | ⟨behavior, depth, htasks⟩
  · right
    unfold turn advance
    simp only [htasks]
    exact ⟨_, _, rfl, rfl⟩
  · left
    unfold turn advance performTask
    simp only [htasks]
    exact ⟨_, _, rfl, .inr (.inr ⟨behavior, a.stack.depth, rfl⟩), rfl⟩
  · cases hchain : behavior.chain with
    | cons action actions =>
      rw [hchain] at htasks
      exact absurd ⟨behavior, depth, action, actions, [], htasks⟩ other
    | nil =>
      rw [hchain] at htasks
      unfold turn advance performTask walkOn
      simp only [htasks]
      split_ifs
      · exact .inl ⟨_, _, rfl, .inl rfl, rfl⟩
      · exact .inr ⟨_, _, rfl, rfl⟩

lemma IsOpening.not_arriving (h : a.IsOpening) : ¬ a.IsArriving := by
  rintro ⟨-, -, inputs, behavior, htasks | ⟨time, htasks⟩⟩
  all_goals
    rw [IsOpening, htasks] at h
    simp at h

/-- **Nobody becomes a request that has not begun.**  What a turn spawns has begun, and what goes on
has begun unless the request has just waited for its arrival. -/
lemma turn_upcoming (d : Deployment) (now : SimTime) (id : ProcessId) (h : a.IsSound)
    (faultless : env.Faultless) :
    (∀ b ∈ (a.turn d now id env).spawned, ¬ b.IsArriving) ∧
      ∀ p ∈ (a.turn d now id env).next.goesOn id, p.2.IsArriving →
        ∃ arrival, a.IsExpected arrival := by
  rcases h with ⟨entry, h⟩ | h
  · obtain ⟨-, hnext, hspawned⟩ := turn_balanced d now id h faultless
    refine ⟨fun b hb => ?_, fun p hp harriving => absurd harriving (hnext p hp).not_arriving⟩
    obtain ⟨entry, hb⟩ := hspawned b hb
    exact hb.not_arriving
  · rcases h.upcoming with ⟨time, hexpected⟩ | harrived
    · obtain ⟨b, hturn, -⟩ := turn_expected d now id env hexpected
      rw [hturn]
      exact ⟨by simp, fun _ _ _ => ⟨time, hexpected⟩⟩
    · rcases turn_arrived d now id env harrived with ⟨env', b, hturn, hb, -⟩ | ⟨env', c, hturn, -⟩
      · rw [hturn]
        refine ⟨by simp, fun p hp harriving => ?_⟩
        rw [List.mem_singleton.mp hp] at harriving
        exact absurd harriving hb.not_arriving
      · rw [hturn, report_ends.1, report_ends.2]
        exact ⟨by simp, by simp [Next.goesOn]⟩

/-! ### What is noted of a turn -/

/-- A turn notes nothing, or that the inputs of a request are bound, or that it enters its first
action. -/
lemma openings_cases (l : Openings) (now : SimTime) (a : Activity) :
    l.turn now a = l ∨
      (∃ n, a.role = .request n ∧ (∃ inputs rest, a.tasks = .accept inputs :: rest) ∧
        l.turn now a = { l with bound := l.bound ++ [(n, now)] }) ∨
      ∃ n, a.role = .request n ∧ a.EntersAction ∧ n ∉ l.acted.map Prod.fst ∧
        l.turn now a = { l with acted := l.acted ++ [(n, now)] } := by
  unfold Openings.turn
  split
  next n inputs rest hrole htasks => exact .inr (.inl ⟨n, hrole, ⟨inputs, rest, htasks⟩, rfl⟩)
  next n behavior depth action actions rest hrole htasks =>
    split_ifs with hacted
    · exact .inl rfl
    · exact .inr (.inr ⟨n, hrole, ⟨_, _, _, _, _, htasks⟩, hacted, rfl⟩)
  · exact .inl rfl

lemma openings_of_other {l : Openings} (h : ∀ n, a.role ≠ .request n) : l.turn now a = l := by
  rcases openings_cases l now a with hsame | ⟨n, hrole, -⟩ | ⟨n, hrole, -⟩
  · exact hsame
  · exact absurd hrole (h n)
  · exact absurd hrole (h n)

lemma openings_of_arrived {l : Openings} (role : a.role = .request n) (h : a.HasArrived) :
    l.turn now a = { l with bound := l.bound ++ [(n, now)] } := by
  obtain ⟨inputs, behavior, htasks⟩ := h
  simp only [Openings.turn, role, htasks]

lemma openings_of_acting {l : Openings} (role : a.role = .request n) (h : a.EntersAction)
    (first : n ∉ l.acted.map Prod.fst) :
    l.turn now a = { l with acted := l.acted ++ [(n, now)] } := by
  obtain ⟨behavior, depth, action, actions, rest, htasks⟩ := h
  simp only [Openings.turn, role, htasks, if_neg first]

/-- An activity accepts inputs only as a request that has arrived. -/
lemma IsSound.hasArrived (sound : a.IsSound) {inputs : List VariableUsage} {rest : List Task}
    (htasks : a.tasks = .accept inputs :: rest) : a.HasArrived := by
  rcases sound with ⟨entry, hbalanced⟩ | harriving
  · rw [IsBalanced, htasks] at hbalanced
    exact hbalanced.elim
  · rcases harriving.upcoming with ⟨time, inputs', behavior, htasks'⟩ | harrived
    · rw [htasks] at htasks'
      cases htasks'
    · exact harrived

lemma openings_bound {l : Openings} (sound : a.IsSound) (arrived : ¬ a.HasArrived) :
    (l.turn now a).bound = l.bound := by
  rcases openings_cases l now a with h | ⟨n, -, ⟨inputs, rest, htasks⟩, -⟩ | ⟨n, -, -, -, h⟩
  · rw [h]
  · exact absurd (sound.hasArrived htasks) arrived
  · rw [h]

lemma openings_of_acted {l : Openings} (role : a.role = .request n) (sound : a.IsSound)
    (arrived : ¬ a.HasArrived) (h : a.EntersAction → n ∈ l.acted.map Prod.fst) :
    l.turn now a = l := by
  rcases openings_cases l now a with
    hsame | ⟨m, -, ⟨inputs, rest, htasks⟩, -⟩ | ⟨m, hrole, henters, hfirst, -⟩
  · exact hsame
  · exact absurd (sound.hasArrived htasks) arrived
  · rw [role] at hrole
    injection hrole with hrole
    exact absurd (h henters) (hrole ▸ hfirst)

end Activity

namespace Kernel

variable {d : Deployment} {specs : List RequestSpec} {stop : Option SimTime}
  {k k' : Kernel Environment Activity} {l : Openings} {id : ProcessId} {a : Activity}

/-! ## Those that have not begun -/

section Upcoming

variable (disciplined : k.Disciplined) (awake : ∀ q ∈ k.blocked, ¬ q.2.IsArriving)
  (runs : k.running = some (id, a)) (turned : Turned k k' id (a.turn d k.now id k.world))

include disciplined awake runs turned

/-- Who has not begun after a turn: a bystander, or the process itself, which has just waited for its
arrival. -/
lemma Turned.mem_upcoming {x : Appointment Activity} (hx : x ∈ k'.agenda)
    (hxa : x.task.IsArriving) : x ∈ k.others ∨
      x.process = id ∧ x.task.role = a.role ∧ x.task.HasArrived ∧ ∃ time, a.IsExpected time ∧
        x.time = k.now.passing (time.since k.now) := by
  obtain ⟨hspawned, hnext⟩ := turn_upcoming d k.now id
    (disciplined.sound _ (running_mem runs)) disciplined.faultless
  rcases turned.mem_agenda_cases hx with hx | ⟨q, hq, -, rfl⟩ | ⟨q, hq, rfl⟩ | hx
  · right
    obtain ⟨time, hexpected⟩ := hnext _ (appointments_goesOn _ _ x hx) hxa
    obtain ⟨b, hturn, hb, hrole, -⟩ := turn_expected d k.now id k.world hexpected
    rw [hturn, Next.appointments, List.mem_singleton] at hx
    rw [hx]
    exact ⟨rfl, hrole, hb, time, hexpected, rfl⟩
  · exact absurd hxa (awake q hq)
  · exact absurd hxa (hspawned q.2 (mem_newborn hq).2.2)
  · exact .inl hx

/-- Nobody who has not begun is blocked. -/
lemma Turned.blocked_awake : ∀ q ∈ k'.blocked, ¬ q.2.IsArriving := by
  intro q hq harriving
  rw [turned.blocked, List.mem_append, List.mem_filter] at hq
  rcases hq with ⟨hq, -⟩ | hq
  · exact awake q hq harriving
  · obtain ⟨time, hexpected⟩ := (turn_upcoming d k.now id (disciplined.sound _ (running_mem runs))
      disciplined.faultless).2 q (waiting_goesOn _ q hq) harriving
    obtain ⟨b, hturn, -⟩ := turn_expected d k.now id k.world hexpected
    rw [hturn] at hq
    cases hq

end Upcoming

/-! ## The order in which requests begin -/

/-- **Requests are expected in the order of their arrivals.**  Those that have not begun go on at the
start or at their arrivals, at one time in the order of submission, and those that have begun come
before them. -/
structure Expects (specs : List RequestSpec) (stop : Option SimTime)
    (k : Kernel Environment Activity) (begun : List (Nat × SimTime)) : Prop where
  queued : k.Queued
  disciplined : k.Disciplined
  clock : SimTime.zero ≤ k.now ∧ ∀ s ∈ stop, k.now ≤ SimTime.zero.later s
  numbered : ∀ p ∈ k.processes, ∀ n, p.2.role = .request n → n = p.1
  upcoming : ∀ x ∈ k.agenda, x.task.IsArriving →
    ∃ spec, specs[x.process]? = some spec ∧ x.task.Upcoming spec.arrivesAt x.time
  awake : ∀ q ∈ k.blocked, ¬ q.2.IsArriving
  inOrder : k.InOrder IsArriving
  fresh : ∀ x ∈ k.agenda, x.task.IsArriving → (∃ time, x.task.IsExpected time) →
    ∀ y ∈ k.agenda, y.task.IsArriving → y.task.HasArrived → y.process < x.process
  sorted : begun.Pairwise Openings.Precedes
  ahead : ∀ q ∈ begun, ∀ x ∈ k.agenda, x.task.IsArriving →
    ∀ spec, specs[x.process]? = some spec → Openings.Precedes q (x.process, spec.arrivesAt)
  timed : ∀ q ∈ begun, ∃ spec, specs[q.1]? = some spec ∧ q.2 = spec.arrivesAt ∧
    ∀ s ∈ stop, q.2 ≤ SimTime.zero.later s
  complete : ∀ n < specs.length, n ∈ begun.map Prod.fst ∨
    ∃ x ∈ k.agenda, x.process = n ∧ x.task.IsArriving

variable {begun : List (Nat × SimTime)}

lemma zero_le_arrivesAt (spec : RequestSpec) : SimTime.zero ≤ spec.arrivesAt :=
  SimTime.le_later_right _ _

lemma Quiet.expects (h : k.Expects specs stop begun) (hstep : Takes (program d) stop k k')
    (quiet : Quiet (program d) k k') : k'.Expects specs stop begun := by
  refine ⟨quiet.queued h.queued, quiet.disciplined h.disciplined, ⟨h.clock.1.trans quiet.now, ?_⟩,
    quiet.processes ▸ h.numbered, quiet.agenda ▸ h.upcoming, quiet.blocked ▸ h.awake,
    quiet.inOrder h.inOrder, quiet.agenda ▸ h.fresh, h.sorted, quiet.agenda ▸ h.ahead, h.timed,
    quiet.agenda ▸ h.complete⟩
  rintro s rfl
  have hbefore := h.clock.2 s rfl
  have hafter := step_now_stop h.queued.joined.order hstep
  rw [SimTime.later_eq_max] at hbefore hafter ⊢
  exact hafter.trans (max_le hbefore (le_max_right _ _))

section Turns

variable (h : k.Expects specs stop begun) (runs : k.running = some (id, a))
  (turned : Turned k k' id (a.turn d k.now id k.world))

include h runs

/-- A request that has not arrived runs at the start. -/
lemma Expects.runs_expected {time : SimTime} (expected : a.IsExpected time) :
    a.IsArriving ∧ k.now = .zero ∧ ∃ spec, specs[id]? = some spec ∧ time = spec.arrivesAt := by
  have harriving := (h.disciplined.sound _ (running_mem runs)).arriving (.inl ⟨time, expected⟩)
  obtain ⟨spec, hspec, hupcoming⟩ := h.upcoming _ (running_agenda runs) harriving
  refine ⟨harriving, ?_⟩
  obtain ⟨_, _, htasks⟩ := expected
  generalize hnow : k.now = now at hupcoming
  cases hupcoming with
  | expected hother =>
    obtain ⟨_, _, htasks'⟩ := hother
    rw [htasks] at htasks'
    cases htasks'
    exact ⟨rfl, spec, hspec, rfl⟩
  | arrived harrived => exact absurd ⟨_, _, htasks⟩ (harrived.not_expected time)

/-- A request that has arrived runs at its arrival. -/
lemma Expects.runs_arrived (arrived : a.HasArrived) :
    a.IsArriving ∧ ∃ spec, specs[id]? = some spec ∧ k.now = spec.arrivesAt := by
  have harriving := (h.disciplined.sound _ (running_mem runs)).arriving (.inr arrived)
  obtain ⟨spec, hspec, hupcoming⟩ := h.upcoming _ (running_agenda runs) harriving
  refine ⟨harriving, spec, hspec, ?_⟩
  generalize hnow : k.now = now at hupcoming
  cases hupcoming with
  | expected hexpected => exact absurd hexpected (arrived.not_expected _)
  | arrived => rfl

/-- Whoever begins or waits for its arrival comes before all others that have not begun. -/
lemma Expects.first (arriving : a.IsArriving) {x : Appointment Activity} (hx : x ∈ k.others)
    (hxa : x.task.IsArriving) {spec : RequestSpec} (hspec : specs[x.process]? = some spec) :
    Openings.Precedes (id, k.now) (x.process, spec.arrivesAt) := by
  obtain ⟨spec', hspec', hupcoming⟩ := h.upcoming x (mem_agenda_of_others hx) hxa
  rw [hspec] at hspec'
  injection hspec' with hspec'
  subst hspec'
  have hle : x.time ≤ spec.arrivesAt := by
    generalize x.time = time at hupcoming
    cases hupcoming with
    | expected => exact zero_le_arrivesAt spec
    | arrived => exact le_refl _
  rcases h.inOrder.first h.queued.joined.order.toLined runs arriving hx hxa with hlt | ⟨heq, hid⟩
  · exact .inl (hlt.trans_le hle)
  · rcases lt_or_eq_of_le (heq.trans_le hle) with hlt | heq
    · exact .inl hlt
    · exact .inr ⟨heq, hid⟩

include turned

/-- A request that has not begun stays so when it waits for its arrival. -/
lemma Turned.expected_stays {time : SimTime} (expected : a.IsExpected time) :
    ∃ x ∈ k'.agenda, x.process = id ∧ x.task.IsArriving := by
  obtain ⟨b, hturn, ⟨inputs, behavior, htasks⟩, hrole, hcontexts⟩ :=
    turn_expected d k.now id k.world expected
  have harriving := (h.runs_expected runs expected).1
  refine ⟨⟨id, b, k.now.passing (time.since k.now)⟩, ?_, rfl, ?_⟩
  · refine turned.agenda.mem_iff.mpr ?_
    rw [hturn]
    exact List.mem_append_left _ (List.mem_append_left _ (List.mem_append_left _
      List.mem_cons_self))
  · refine ⟨?_, ?_, inputs, behavior, .inl htasks⟩
    · rw [hrole]
      exact harriving.request
    · rw [hcontexts]
      exact harriving.context

lemma Turned.numbered : ∀ p ∈ k'.processes, ∀ n, p.2.role = .request n → n = p.1 := by
  have hsettled := h.queued.joined.settled _ (running_mem runs)
  intro p hp n hrole
  rw [turned.processes.mem_iff, List.mem_append, List.mem_append] at hp
  rcases hp with (hp | hp) | hp
  · rw [goesOn_ids _ p hp]
    exact h.numbered _ (running_mem runs) n
      ((turn_role d k.now id k.world hsettled p hp).symm.trans hrole)
  · exact absurd hrole (turn_spawned_role d k.now id k.world hsettled _ (mem_newborn hp).2.2 n)
  · exact h.numbered p (mem_processes_of_bystanders runs hp) n hrole

lemma Turned.expects_inOrder : k'.InOrder IsArriving := by
  obtain ⟨hspawned, hnext⟩ := turn_upcoming d k.now id
    (h.disciplined.sound _ (running_mem runs)) h.disciplined.faultless
  refine turned.inOrder h.queued.joined.order runs h.inOrder hspawned (fun q hq _ => h.awake q hq)
    (fun x hx hxa => ?_) ?_
  · obtain ⟨time, hexpected⟩ := hnext _ (appointments_goesOn _ _ x hx) hxa
    exact (h.runs_expected runs hexpected).1
  -- Whoever parks has waited for its arrival, and so did everybody with a higher number.
  intro x hx hxa hlater y hy hya htime
  obtain ⟨time, hexpected⟩ := hnext _ (appointments_goesOn _ _ x hx) hxa
  obtain ⟨harriving, hnow, -⟩ := h.runs_expected runs hexpected
  obtain ⟨spec, -, hupcoming⟩ := h.upcoming y (mem_agenda_of_others hy) hya
  rw [← htime, hnow] at hlater
  generalize y.time = time' at hupcoming hlater
  cases hupcoming with
  | expected => exact absurd hlater (lt_irrefl _)
  | arrived harrived =>
    exact h.fresh _ (running_agenda runs) harriving ⟨time, hexpected⟩ y (mem_agenda_of_others hy) hya
      harrived

lemma Turned.expects_fresh : ∀ x ∈ k'.agenda, x.task.IsArriving →
    (∃ time, x.task.IsExpected time) → ∀ y ∈ k'.agenda, y.task.IsArriving → y.task.HasArrived →
      y.process < x.process := by
  rintro x hx hxa ⟨time, hexpected⟩ y hy hya harrived
  have hxothers : x ∈ k.others := by
    rcases turned.mem_upcoming h.disciplined h.awake runs hx hxa with hx | ⟨-, -, hother, -⟩
    · exact hx
    · exact absurd hexpected (hother.not_expected time)
  rcases turned.mem_upcoming h.disciplined h.awake runs hy hya with
    hy | ⟨hid, -, -, time', hruns, -⟩
  · exact h.fresh x (mem_agenda_of_others hxothers) hxa ⟨time, hexpected⟩ y (mem_agenda_of_others hy)
      hya harrived
  · -- Both have waited from the start, at which the process that has arrived runs first.
    obtain ⟨harriving, hnow, -⟩ := h.runs_expected runs hruns
    obtain ⟨spec, -, hupcoming⟩ := h.upcoming x (mem_agenda_of_others hxothers) hxa
    have hfirst := h.inOrder.first h.queued.joined.order.toLined runs harriving hxothers hxa
    rw [hnow] at hfirst
    generalize x.time = start at hupcoming hfirst
    cases hupcoming with
    | expected =>
      rcases hfirst with hlt | ⟨-, hlt⟩
      · exact absurd hlt (lt_irrefl _)
      · exact hid ▸ hlt
    | arrived hother => exact absurd hexpected (hother.not_expected time)

lemma Turned.expects_upcoming (numbers : ∀ spec ∈ specs, spec.arrival.seconds.isNaN = false) :
    ∀ x ∈ k'.agenda, x.task.IsArriving →
      ∃ spec, specs[x.process]? = some spec ∧ x.task.Upcoming spec.arrivesAt x.time := by
  intro x hx hxa
  rcases turned.mem_upcoming h.disciplined h.awake runs hx hxa with
    hx | ⟨hid, -, harrived, time, hruns, htime⟩
  · exact h.upcoming x (mem_agenda_of_others hx) hxa
  · obtain ⟨-, hnow, spec, hspec, rfl⟩ := h.runs_expected runs hruns
    obtain ⟨nan, hzero⟩ := SimTime.later_zero_spec (numbers spec (List.mem_of_getElem? hspec))
    have harrival : x.time = spec.arrivesAt := by
      rw [htime, hnow]
      exact SimTime.zero_passing_since nan hzero
    exact ⟨spec, hid ▸ hspec, harrival ▸ .arrived harrived⟩

/-- Requests that have begun stay ahead of those that have not. -/
lemma Turned.expects_ahead : ∀ q ∈ begun, ∀ x ∈ k'.agenda, x.task.IsArriving →
    ∀ spec, specs[x.process]? = some spec → Openings.Precedes q (x.process, spec.arrivesAt) := by
  intro q hq x hx hxa spec hspec
  rcases turned.mem_upcoming h.disciplined h.awake runs hx hxa with
    hx | ⟨hid, -, -, time, hruns, -⟩
  · exact h.ahead q hq x (mem_agenda_of_others hx) hxa spec hspec
  · rw [hid] at hspec ⊢
    exact h.ahead q hq _ (running_agenda runs) (h.runs_expected runs hruns).1 spec hspec

/-- A request that has not begun has not begun after a turn, unless the turn is its own. -/
lemma Turned.expects_complete {n : Nat} (hn : n < specs.length) : n ∈ begun.map Prod.fst ∨
    (∃ x ∈ k'.agenda, x.process = n ∧ x.task.IsArriving) ∨ n = id ∧ a.HasArrived := by
  rcases h.complete n hn with hdone | ⟨x, hx, hid, hxa⟩
  · exact .inl hdone
  rw [agenda_running runs, List.mem_cons] at hx
  rcases hx with rfl | hx
  · rcases hxa.upcoming with ⟨time, hexpected⟩ | harrived
    · obtain ⟨y, hy, hyid, hya⟩ := turned.expected_stays h runs hexpected
      exact .inr (.inl ⟨y, hy, hyid.trans hid, hya⟩)
    · exact .inr (.inr ⟨hid.symm, harrived⟩)
  · exact .inr (.inl ⟨x, turned.agenda.mem_iff.mpr (List.mem_append_right _ hx), hid, hxa⟩)

/-- A turn of another process than a request that has arrived. -/
lemma Turned.expects_other (numbers : ∀ spec ∈ specs, spec.arrival.seconds.isNaN = false)
    (other : ¬ a.HasArrived) : k'.Expects specs stop begun := by
  refine ⟨turned.queued h.queued runs, turned.disciplined h.disciplined runs,
    turned.now ▸ h.clock, turned.numbered h runs, turned.expects_upcoming h runs numbers,
    turned.blocked_awake h.disciplined h.awake runs, turned.expects_inOrder h runs,
    turned.expects_fresh h runs, h.sorted, turned.expects_ahead h runs, h.timed, fun n hn => ?_⟩
  rcases turned.expects_complete h runs hn with hdone | hlater | ⟨-, harrived⟩
  · exact .inl hdone
  · exact .inr hlater
  · exact absurd harrived other

/-- **The request that begins is the next one**, and it begins at its arrival. -/
lemma Turned.expects_begins (numbers : ∀ spec ∈ specs, spec.arrival.seconds.isNaN = false)
    (arrived : a.HasArrived) : k'.Expects specs stop (begun ++ [(id, k.now)]) := by
  obtain ⟨harriving, spec, hspec, hnow⟩ := h.runs_arrived runs arrived
  refine ⟨turned.queued h.queued runs, turned.disciplined h.disciplined runs,
    turned.now ▸ h.clock, turned.numbered h runs, turned.expects_upcoming h runs numbers,
    turned.blocked_awake h.disciplined h.awake runs, turned.expects_inOrder h runs,
    turned.expects_fresh h runs, ?_, ?_, ?_, fun n hn => ?_⟩
  · refine List.pairwise_append.mpr ⟨h.sorted, List.pairwise_singleton _ _, fun q hq r hr => ?_⟩
    rw [List.mem_singleton.mp hr, hnow]
    exact h.ahead q hq _ (running_agenda runs) harriving spec hspec
  · intro q hq x hx hxa spec' hspec'
    rcases List.mem_append.mp hq with hq | hq
    · exact turned.expects_ahead h runs q hq x hx hxa spec' hspec'
    · rw [List.mem_singleton.mp hq]
      rcases turned.mem_upcoming h.disciplined h.awake runs hx hxa with
        hx | ⟨-, -, -, time, hexpected, -⟩
      · exact h.first runs harriving hx hxa hspec'
      · exact absurd hexpected (arrived.not_expected time)
  · intro q hq
    rcases List.mem_append.mp hq with hq | hq
    · exact h.timed q hq
    · rw [List.mem_singleton.mp hq]
      exact ⟨spec, hspec, hnow, h.clock.2⟩
  · rw [List.map_append, List.mem_append]
    rcases turned.expects_complete h runs hn with hdone | hlater | ⟨rfl, -⟩
    · exact .inl (.inl hdone)
    · exact .inr hlater
    · exact .inl (.inr List.mem_cons_self)

end Turns

/-! ## First actions -/

/-- **Requests that have begun have entered their first actions**, but for the one that runs, which is
about to.  Those that never do so end at once. -/
structure Acts (k : Kernel Environment Activity) (l : Openings) : Prop where
  actions : l.acted.Sublist l.bound
  opening : ∀ p ∈ k.processes, ¬ p.2.IsArriving → ∀ n, p.2.role = .request n →
    n ∈ l.acted.map Prod.fst ∨ k.running = some p ∧ p.2.IsOpening ∧
      ∃ earlier, l.bound = earlier ++ [(n, k.now)] ∧ l.acted.Sublist earlier
  ended : ∀ q ∈ l.bound, q.1 ∈ l.acted.map Prod.fst ∨
    (∃ a, k.running = some (q.1, a) ∧ a.role = .request q.1 ∧ ¬ a.IsArriving ∧ k.now = q.2) ∨
    ∃ c, (q.1, c) ∈ k.world.completions ∧ c.time = q.2

lemma Quiet.acts (h : k.Acts l) (quiet : Quiet (program d) k k') : k'.Acts l := by
  refine ⟨h.actions, fun p hp harriving n hrole => ?_, fun q hq => ?_⟩
  · rcases h.opening p (quiet.processes ▸ hp) harriving n hrole with hacted | ⟨hruns, -⟩
    · exact .inl hacted
    · rw [quiet.idle] at hruns
      cases hruns
  · rcases h.ended q hq with hacted | ⟨a, hruns, -⟩ | hended
    · exact .inl hacted
    · rw [quiet.idle] at hruns
      cases hruns
    · rw [quiet.completions]
      exact .inr (.inr hended)

section Acting

variable (h : k.Acts l) (expects : k.Expects specs stop l.bound) (runs : k.running = some (id, a))
  (turned : Turned k k' id (a.turn d k.now id k.world))

include h expects runs

/-- Everybody but the process that runs has entered its first action or not begun. -/
lemma Acts.bystander {p : ProcessId × Activity} (hp : p ∈ k.bystanders)
    (harriving : ¬ p.2.IsArriving) {n : Nat} (hrole : p.2.role = .request n) :
    n ∈ l.acted.map Prod.fst := by
  rcases h.opening p (mem_processes_of_bystanders runs hp) harriving n hrole with hacted | ⟨hruns, -⟩
  · exact hacted
  · rw [runs] at hruns
    injection hruns with hruns
    exact absurd (congrArg Prod.fst hruns).symm
      (expects.queued.joined.order.bystander_ne runs hp)

include turned

/-- Requests keep having acted, if the process that runs does its part. -/
lemma Turned.acts_of {l' : Openings} (actions : l'.acted.Sublist l'.bound)
    (grows : ∀ n ∈ l.acted.map Prod.fst, n ∈ l'.acted.map Prod.fst)
    (opening : ∀ p ∈ (a.turn d k.now id k.world).next.goesOn id, ¬ p.2.IsArriving →
      ∀ n, p.2.role = .request n → n ∈ l'.acted.map Prod.fst ∨ k'.running = some p ∧ p.2.IsOpening ∧
        ∃ earlier, l'.bound = earlier ++ [(n, k.now)] ∧ l'.acted.Sublist earlier)
    (ended : ∀ q ∈ l'.bound,
      q ∈ l.bound ∧ ¬ (a.role = .request q.1 ∧ ¬ a.IsArriving ∧ k.now = q.2) ∨
      q.1 ∈ l'.acted.map Prod.fst ∨
      (∃ b, k'.running = some (q.1, b) ∧ b.role = .request q.1 ∧ ¬ b.IsArriving ∧ k.now = q.2) ∨
      ∃ c, (q.1, c) ∈ k'.world.completions ∧ c.time = q.2) : k'.Acts l' := by
  have hsettled := expects.queued.joined.settled _ (running_mem runs)
  refine ⟨actions, fun p hp harriving n hrole => ?_, fun q hq => ?_⟩
  · rw [turned.now]
    rw [turned.processes.mem_iff, List.mem_append, List.mem_append] at hp
    rcases hp with (hp | hp) | hp
    · exact opening p hp harriving n hrole
    · exact absurd hrole (turn_spawned_role d k.now id k.world hsettled _ (mem_newborn hp).2.2 n)
    · exact .inl (grows n (h.bystander expects runs hp harriving hrole))
  · rw [turned.now]
    rcases ended q hq with ⟨hold, hother⟩ | hnew
    · rcases h.ended q hold with hacted | ⟨b, hruns, hrole, hnot, hnow⟩ | ⟨c, hc, htime⟩
      · exact .inl (grows _ hacted)
      · rw [runs] at hruns
        injection hruns with hruns
        obtain rfl : a = b := congrArg Prod.snd hruns
        exact absurd ⟨hrole, hnot, hnow⟩ hother
      · refine .inr (.inr ⟨c, ?_, htime⟩)
        rw [turned.world]
        rcases turn_reports d k.now id k.world hsettled with ⟨b, -, -, hsame⟩ | ⟨-, hmore, -⟩
        · exact hsame ▸ hc
        · exact hmore hc
    · exact hnew

/-- A request that runs and does not give up control, or ends, is about to enter its first action. -/
lemma Turned.acts_at_once {l' : Openings} (role : a.role = .request id)
    (acted : l'.acted = l.acted) (actions : l.acted.Sublist l'.bound)
    (turns : (∃ env b, a.turn d k.now id k.world = ⟨env, [], [], .proceed b⟩ ∧ b.IsOpening ∧
        b.role = a.role) ∨ ∃ env c, a.turn d k.now id k.world = a.report env c ∧ c.time = k.now)
    (bound : ∃ earlier, l'.bound = earlier ++ [(id, k.now)] ∧ l.acted.Sublist earlier)
    (ended : ∀ q ∈ l'.bound, q ∈ l.bound ∧ ¬ (a.role = .request q.1 ∧ ¬ a.IsArriving ∧ k.now = q.2) ∨
      q = (id, k.now)) : k'.Acts l' := by
  obtain ⟨earlier, hbound, hearlier⟩ := bound
  rcases turns with ⟨env, b, hturn, hb, hrole⟩ | ⟨env, c, hturn, htime⟩
  · have hruns : k'.running = some (id, b) := by
      rw [turned.applied, hturn]
      rfl
    refine turned.acts_of h expects runs (acted ▸ actions) (by simp [acted]) ?_ fun q hq => ?_
    · intro p hp _ n hn
      rw [hturn] at hp
      obtain rfl := List.mem_singleton.mp hp
      obtain rfl : id = n := by
        rw [hrole, role] at hn
        injection hn
      exact .inr ⟨hruns, hb, earlier, hbound, acted ▸ hearlier⟩
    · rcases ended q hq with hold | rfl
      · exact .inl hold
      · exact .inr (.inr (.inl ⟨b, hruns, hrole.trans role, hb.not_arriving, rfl⟩))
  · refine turned.acts_of h expects runs (acted ▸ actions) (by simp [acted]) ?_ fun q hq => ?_
    · rw [hturn, report_ends.2]
      exact fun p hp => by cases hp
    · rcases ended q hq with hold | rfl
      · exact .inl hold
      · refine .inr (.inr (.inr ⟨c, ?_, htime⟩))
        rw [turned.world, hturn]
        simp only [report, role]
        exact List.mem_cons_self

/-- What has been noted stays, if the process that runs is no request that has just begun. -/
lemma Turned.acts_same
    (opening : ∀ p ∈ (a.turn d k.now id k.world).next.goesOn id, ¬ p.2.IsArriving →
      p.2.role = .request id → id ∈ l.acted.map Prod.fst)
    (ended : ¬ a.IsArriving → a.role = .request id → id ∈ l.acted.map Prod.fst) : k'.Acts l := by
  have hsettled := expects.queued.joined.settled _ (running_mem runs)
  have hnumber : ∀ n, a.role = .request n → n = id :=
    expects.numbered _ (running_mem runs)
  refine turned.acts_of h expects runs h.actions (fun _ hn => hn) ?_ fun q hq => ?_
  · intro p hp harriving n hn
    obtain rfl := hnumber n ((turn_role d k.now id k.world hsettled p hp).symm.trans hn)
    exact .inl (opening p hp harriving hn)
  · by_cases hself : a.role = .request q.1 ∧ ¬ a.IsArriving
    · have hid := hnumber q.1 hself.1
      exact .inr (.inl (hid ▸ ended hself.2 (hid ▸ hself.1)))
    · exact .inl ⟨hq, fun hall => hself ⟨hall.1, hall.2.1⟩⟩

/-- A request that has arrived begins. -/
lemma Turned.acts_arrived (role : a.role = .request id) (arrived : a.HasArrived) :
    k'.Acts { l with bound := l.bound ++ [(id, k.now)] } := by
  have harriving := (expects.disciplined.sound _ (running_mem runs)).arriving (.inr arrived)
  refine turned.acts_at_once h expects runs role rfl ?_ (turn_arrived d k.now id k.world arrived)
    ⟨l.bound, rfl, h.actions⟩ fun q hq => ?_
  · exact h.actions.trans (List.sublist_append_left _ _)
  · rcases List.mem_append.mp hq with hq | hq
    · exact .inl ⟨hq, fun hall => hall.2.1 harriving⟩
    · exact .inr (List.mem_singleton.mp hq)

/-- A request enters its first action. -/
lemma Turned.acts_first {earlier : List (Nat × SimTime)}
    (bound : l.bound = earlier ++ [(id, k.now)]) (before : l.acted.Sublist earlier) :
    k'.Acts { l with acted := l.acted ++ [(id, k.now)] } := by
  have hsettled := expects.queued.joined.settled _ (running_mem runs)
  have hmem : id ∈ (l.acted ++ [(id, k.now)]).map Prod.fst := by simp
  refine turned.acts_of h expects runs ?_ ?_ ?_ fun q hq => ?_
  · rw [bound]
    exact before.append (List.Sublist.refl _)
  · intro n hn
    rw [List.map_append]
    exact List.mem_append_left _ hn
  · intro p hp _ n hn
    have hsame := (turn_role d k.now id k.world hsettled p hp).symm.trans hn
    exact .inl (expects.numbered _ (running_mem runs) n hsame ▸ hmem)
  · by_cases hid : a.role = .request q.1
    · exact .inr (.inl (expects.numbered _ (running_mem runs) q.1 hid ▸ hmem))
    · exact .inl ⟨hq, fun hall => hid hall.1⟩

/-- **Whoever runs does its part.** -/
lemma Turned.acts : k'.Acts (l.turn k.now a) := by
  have hsound := expects.disciplined.sound _ (running_mem runs)
  have hsettled := expects.queued.joined.settled _ (running_mem runs)
  by_cases hrequest : ∃ n, a.role = .request n
  swap
  · rw [openings_of_other fun n hn => hrequest ⟨n, hn⟩]
    refine turned.acts_same h expects runs (fun p hp _ hn => ?_) fun _ hn => absurd ⟨_, hn⟩ hrequest
    exact absurd ⟨_, (turn_role d k.now id k.world hsettled p hp).symm.trans hn⟩ hrequest
  obtain ⟨n, hrole⟩ := hrequest
  obtain rfl : n = id := expects.numbered _ (running_mem runs) n hrole
  by_cases harrived : a.HasArrived
  · rw [openings_of_arrived hrole harrived]
    exact turned.acts_arrived h expects runs hrole harrived
  by_cases hexpected : ∃ time, a.IsExpected time
  · -- It goes on as a request that has not begun.
    obtain ⟨time, hexpected⟩ := hexpected
    have harriving := hsound.arriving (.inl ⟨time, hexpected⟩)
    rw [openings_of_acted hrole hsound harrived fun hacts => by
      obtain ⟨_, _, htasks⟩ := hexpected
      obtain ⟨_, _, _, _, _, htasks'⟩ := hacts
      rw [htasks] at htasks'
      cases htasks']
    refine turned.acts_same h expects runs (fun p hp hnot _ => ?_) fun hnot => absurd harriving hnot
    have hpsound := (turn_sound d k.now n hsound expects.disciplined.faultless).2.1 p hp
    obtain ⟨b, hturn, hb, -⟩ := turn_expected d k.now n k.world hexpected
    rw [hturn] at hp
    rw [List.mem_singleton.mp hp] at hnot hpsound
    exact absurd (hpsound.arriving (.inr hb)) hnot
  have harriving : ¬ a.IsArriving := fun harriving =>
    harriving.upcoming.elim hexpected harrived
  by_cases hacted : n ∈ l.acted.map Prod.fst
  · rw [openings_of_acted hrole hsound harrived fun _ => hacted]
    exact turned.acts_same h expects runs (fun _ _ _ _ => hacted) fun _ _ => hacted
  obtain ⟨-, hopening, earlier, hbound, hearlier⟩ :=
    (h.opening _ (running_mem runs) harriving n hrole).resolve_left hacted
  by_cases hacts : a.EntersAction
  · rw [openings_of_acting hrole hacts hacted]
    exact turned.acts_first h expects runs hbound hearlier
  · rw [openings_of_acted hrole hsound harrived fun hacts' => absurd hacts' hacts]
    refine turned.acts_at_once h expects runs hrole rfl h.actions
      (turn_opening d k.now n k.world hopening hacts) ⟨earlier, hbound, hearlier⟩ fun q hq => ?_
    by_cases hq' : a.role = .request q.1 ∧ k.now = q.2
    · exact .inr (Prod.ext (expects.numbered _ (running_mem runs) q.1 hq'.1) hq'.2.symm)
    · exact .inl ⟨hq, fun hall => hq' ⟨hall.1, hall.2.2⟩⟩

end Acting

/-! ## Runs -/

/-- Every step leaves requests to begin in order and to enter their first actions. -/
theorem step_opens (numbers : ∀ spec ∈ specs, spec.arrival.seconds.isNaN = false)
    (expects : k.Expects specs stop l.bound) (acts : k.Acts l)
    (hstep : k.step (program d) stop = .goes k') :
    k'.Expects specs stop (l.record k).bound ∧ k'.Acts (l.record k) := by
  rcases step_cases expects.queued.joined.order hstep with quiet | ⟨id, a, runs, turned⟩
  · rw [Openings.record_idle quiet.idle]
    exact ⟨quiet.expects expects (.inl hstep), quiet.acts acts⟩
  · rw [Openings.record_running runs]
    refine ⟨?_, turned.acts acts expects runs⟩
    by_cases harrived : a.HasArrived
    · obtain ⟨n, hrole⟩ := (expects.runs_arrived runs harrived).1.request
      obtain rfl := expects.numbered _ (running_mem runs) n hrole
      rw [openings_of_arrived hrole harrived]
      exact turned.expects_begins expects runs numbers harrived
    · rw [openings_bound (expects.disciplined.sound _ (running_mem runs)) harrived]
      exact turned.expects_other expects runs numbers harrived

/-- **Who has not begun when a run ends** arrives later than the start and than the time to stop at. -/
theorem Expects.never (h : k.Expects specs stop begun)
    (hstep : k.step (program d) stop = .ends k') {n : Nat} {spec : RequestSpec}
    (hspec : specs[n]? = some spec) : n ∉ begun.map Prod.fst ↔
      SimTime.zero < spec.arrivesAt ∧ beyond spec.arrivesAt stop = true := by
  have horder := h.queued.joined.order
  constructor
  · intro hnever
    obtain ⟨x, hx, rfl, hxa⟩ :=
      (h.complete n (List.getElem?_eq_some_iff.mp hspec).1).resolve_left hnever
    have hlater := h.clock.1.trans_lt (step_ends_later horder hstep hx)
    have hbeyond := step_ends_beyond hstep horder.toLined hx
    obtain ⟨spec', hspec', hupcoming⟩ := h.upcoming x hx hxa
    rw [hspec] at hspec'
    injection hspec' with hspec'
    subst hspec'
    generalize x.time = time at hlater hbeyond hupcoming
    cases hupcoming with
    | expected => exact absurd hlater (lt_irrefl _)
    | arrived => exact ⟨hlater, hbeyond⟩
  · rintro ⟨hlater, hbeyond⟩ hbegun
    obtain ⟨q, hq, rfl⟩ := List.mem_map.mp hbegun
    obtain ⟨spec', hspec', htime, hstop⟩ := h.timed q hq
    rw [hspec] at hspec'
    injection hspec' with hspec'
    subst hspec'
    cases stop with
    | none => cases hbeyond
    | some s =>
      have hs : s < spec.arrivesAt := of_decide_eq_true hbeyond
      have hle := hstop s rfl
      rw [htime, SimTime.later_eq_max] at hle
      exact absurd hle (not_le.mpr (max_lt hlater hs))

/-- When nobody runs, all requests that have begun have entered their first actions or ended. -/
lemma Acts.idle (h : k.Acts l) (expects : k.Expects specs stop l.bound) (idle : k.running = none) :
    ∀ q ∈ l.bound, q ∈ l.acted ∨ ∃ c, (q.1, c) ∈ k.world.completions ∧ c.time = q.2 := by
  intro q hq
  rcases h.ended q hq with hacted | ⟨a, hruns, -⟩ | hended
  · -- A request begins only once, so its first action has been noted with the same time.
    obtain ⟨q', hq', hnumber⟩ := List.mem_map.mp hacted
    obtain ⟨spec, hspec, htime, -⟩ := expects.timed q hq
    obtain ⟨spec', hspec', htime', -⟩ := expects.timed q' (h.actions.subset hq')
    rw [hnumber, hspec] at hspec'
    injection hspec' with hspec'
    exact .inl (Prod.ext hnumber (htime'.trans (hspec' ▸ htime.symm)) ▸ hq')
  · rw [idle] at hruns
    cases hruns
  · exact .inr hended

end Kernel

end ServiceSim

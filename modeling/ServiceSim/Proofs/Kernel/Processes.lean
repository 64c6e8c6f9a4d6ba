import ServiceSim.Proofs.Kernel.Agenda

/-!
# The processes of a kernel

Seen from outside a kernel is a collection of processes, each with what it still has to do.  A turn
replaces the process that runs by what it goes on with, adds the processes it spawns, and leaves the
bystanders alone.  Every process keeps its identity, and no identity is given twice.

What holds at the start of a run and is kept by every step holds at its end (`run_induction`).
-/

namespace ServiceSim

variable {World Task : Type}

/-- The process after a turn, unless it has finished. -/
def Next.goesOn (id : ProcessId) : Next Task → List (ProcessId × Task)
  | .proceed task => [(id, task)]
  | .hold _ task => [(id, task)]
  | .block task => [(id, task)]
  | .finish => []

namespace Kernel

variable {program : Program World Task} {stop : Option SimTime} {k k' : Kernel World Task}
variable {id : ProcessId} {a : Task}

/-- All processes but the one that runs. -/
def bystanders (k : Kernel World Task) : List (ProcessId × Task) :=
  (k.others.map fun x => (x.process, x.task)) ++ k.blocked

lemma processes_eq (runs : k.running = some (id, a)) :
    k.processes = (id, a) :: k.bystanders := by
  rw [processes, agenda_running runs]
  rfl

lemma running_mem (runs : k.running = some (id, a)) : (id, a) ∈ k.processes := by
  rw [processes_eq runs]
  exact List.mem_cons_self

lemma running_agenda (runs : k.running = some (id, a)) :
    (⟨id, a, k.now⟩ : Appointment Task) ∈ k.agenda := by
  rw [agenda_running runs]
  exact List.mem_cons_self

lemma mem_processes_of_bystanders (runs : k.running = some (id, a)) {p : ProcessId × Task}
    (hp : p ∈ k.bystanders) : p ∈ k.processes := by
  rw [processes_eq runs]
  exact List.mem_cons_of_mem _ hp

lemma mem_agenda_of_others {x : Appointment Task} (hx : x ∈ k.others) : x ∈ k.agenda :=
  List.mem_append_right _ hx

lemma mem_bystanders_of_blocked {p : ProcessId × Task} (h : p ∈ k.blocked) :
    p ∈ k.bystanders := List.mem_append_right _ h

lemma mem_processes (p : ProcessId × Task) :
    p ∈ k.processes ↔ (∃ time, ⟨p.1, p.2, time⟩ ∈ k.agenda) ∨ p ∈ k.blocked := by
  rw [processes, List.mem_append, List.mem_map]
  refine or_congr_left ⟨?_, ?_⟩
  · rintro ⟨x, hx, rfl⟩
    exact ⟨x.time, hx⟩
  · rintro ⟨time, hx⟩
    exact ⟨_, hx, rfl⟩

/-- A process that has not finished is found. -/
lemma has_iff : k.has id = true ↔ ∃ task, (id, task) ∈ k.processes := by
  have hany : k.has id = k.processes.any (·.1 == id) := by
    have hrunning : k.running.any (·.1 == id) = k.running.toList.any (·.1 == id) := by
      cases k.running <;> simp
    simp only [has, hrunning, processes, agenda, others, appointed, List.map_append, List.map_map,
      List.any_append, List.any_map, Bool.or_assoc]
    rfl
  rw [hany, List.any_eq_true]
  constructor
  · rintro ⟨⟨_, task⟩, hp, hid⟩
    exact ⟨task, beq_iff_eq.mp hid ▸ hp⟩
  · rintro ⟨task, hp⟩
    exact ⟨_, hp, beq_self_eq_true id⟩

lemma Quiet.processes (quiet : Quiet program k k') : k'.processes = k.processes := by
  rw [Kernel.processes, quiet.agenda, quiet.blocked]
  rfl

/-- A turn changes one process and adds those that it spawns. -/
lemma Turned.processes {turn : Turn World Task} (turned : Turned k k' id turn) :
    k'.processes.Perm (turn.next.goesOn id ++ newborn k.spawned turn.spawned ++ k.bystanders) := by
  have hnext : (turn.next.appointments id k.now).map (fun x => (x.process, x.task)) ++
      turn.next.waiting id = turn.next.goesOn id := by
    cases turn.next <;> rfl
  have hpast : ∀ l : List (ProcessId × Task),
      (appointed k.now l).map (fun x => (x.process, x.task)) = l := by
    intro l
    rw [appointed, List.map_map]
    exact List.map_id l
  have hblocked := List.filter_append_perm (·.1 ∈ turn.woken) k.blocked
  have hagenda := turned.agenda.map fun x => (x.process, x.task)
  rw [Kernel.processes, turned.blocked, bystanders, ← hnext]
  rw [← Multiset.coe_eq_coe] at hagenda hblocked ⊢
  simp only [List.map_append, hpast, ← Multiset.coe_add] at hagenda hblocked ⊢
  rw [hagenda, ← hblocked]
  simp only [decide_not]
  abel

/-- A turn that wakes nobody leaves those that are blocked where they are. -/
lemma filter_woken_nil (l : List (ProcessId × Task)) :
    l.filter (·.1 ∈ ([] : List ProcessId)) = [] := by simp

lemma filter_asleep_nil (l : List (ProcessId × Task)) :
    l.filter (·.1 ∉ ([] : List ProcessId)) = l := by simp

/-- No appointment is in the past. -/
lemma Lined.now_le (lined : k.Lined) {x : Appointment Task} (hx : x ∈ k.agenda) : k.now ≤ x.time := by
  rw [agenda, others, appointed, appointed] at hx
  rcases List.mem_append.mp hx with hx | hx
  · obtain ⟨p, -, rfl⟩ := List.mem_map.mp hx
    exact le_refl _
  rcases List.mem_append.mp hx with hx | hx
  · obtain ⟨p, -, rfl⟩ := List.mem_map.mp hx
    exact le_refl _
  · obtain ⟨w, hw, rfl⟩ := List.mem_map.mp hx
    exact le_of_lt (lined.later w hw)

/-- Who is on the agenda after a turn. -/
lemma Turned.mem_agenda_cases {turn : Turn World Task} (turned : Turned k k' id turn)
    {x : Appointment Task} (hx : x ∈ k'.agenda) :
    x ∈ turn.next.appointments id k.now ∨
      (∃ q ∈ k.blocked, q.1 ∈ turn.woken ∧ x = ⟨q.1, q.2, k.now⟩) ∨
      (∃ q ∈ newborn k.spawned turn.spawned, x = ⟨q.1, q.2, k.now⟩) ∨ x ∈ k.others := by
  have hmem := turned.agenda.mem_iff.mp hx
  rw [List.mem_append, List.mem_append, List.mem_append] at hmem
  rcases hmem with ((hnext | hwoken) | hborn) | hothers
  · exact .inl hnext
  · obtain ⟨q, hq, rfl⟩ := List.mem_map.mp hwoken
    obtain ⟨hblocked, hwoken⟩ := List.mem_filter.mp hq
    exact .inr (.inl ⟨q, hblocked, of_decide_eq_true hwoken, rfl⟩)
  · obtain ⟨q, hq, rfl⟩ := List.mem_map.mp hborn
    exact .inr (.inr (.inl ⟨q, hq, rfl⟩))
  · exact .inr (.inr (.inr hothers))

/-- Who is on the agenda after a turn that spawns nobody. -/
lemma Turned.mem_agenda {turn : Turn World Task} (turned : Turned k k' id turn)
    (spawned : turn.spawned = []) {x : Appointment Task} (hx : x ∈ k'.agenda) :
    x ∈ turn.next.appointments id k.now ∨
      (∃ q ∈ k.blocked, q.1 ∈ turn.woken ∧ x = ⟨q.1, q.2, k.now⟩) ∨ x ∈ k.others := by
  rcases turned.mem_agenda_cases hx with hnext | hwoken | ⟨q, hq, -⟩ | hothers
  · exact .inl hnext
  · exact .inr (.inl hwoken)
  · rw [spawned] at hq
    cases hq
  · exact .inr (.inr hothers)

/-! ## Identities -/

lemma newborn_ids (first : Nat) (tasks : List Task) :
    (newborn first tasks).map Prod.fst = List.range' first tasks.length := by
  apply List.ext_getElem
  · simp [newborn]
  · intro i _ _
    simp [newborn]

lemma newborn_tasks (first : Nat) (tasks : List Task) :
    (newborn first tasks).map Prod.snd = tasks := by
  apply List.ext_getElem
  · simp [newborn]
  · intro i _ _
    simp [newborn]

lemma mem_newborn {first : Nat} {tasks : List Task} {p : ProcessId × Task}
    (h : p ∈ newborn first tasks) :
    first ≤ p.1 ∧ p.1 < first + tasks.length ∧ p.2 ∈ tasks := by
  rw [newborn, List.mem_mapIdx] at h
  obtain ⟨i, hi, rfl⟩ := h
  exact ⟨Nat.le_add_right first i, Nat.add_lt_add_left hi first, List.getElem_mem hi⟩

lemma goesOn_ids (next : Next Task) : ∀ p ∈ next.goesOn id, p.1 = id := by
  intro p hp
  cases next with
  | finish => cases hp
  | _ =>
    rw [List.mem_singleton.mp hp]

lemma appointments_process (next : Next Task) (now : SimTime) :
    ∀ x ∈ next.appointments id now, x.process = id := by
  intro x hx
  cases next with
  | proceed b => rw [List.mem_singleton.mp hx]
  | hold delay b => rw [List.mem_singleton.mp hx]
  | block b => cases hx
  | finish => cases hx

lemma waiting_process (next : Next Task) : ∀ q ∈ next.waiting id, q.1 = id := by
  intro q hq
  cases next with
  | block b => rw [List.mem_singleton.mp hq]
  | _ => cases hq

/-- Whoever goes on from a time, or waits, is the process after the turn. -/
lemma appointments_goesOn (next : Next Task) (now : SimTime) :
    ∀ x ∈ next.appointments id now, (id, x.task) ∈ next.goesOn id := by
  intro x hx
  cases next with
  | proceed b => rw [List.mem_singleton.mp hx]; exact List.mem_cons_self
  | hold delay b => rw [List.mem_singleton.mp hx]; exact List.mem_cons_self
  | block b => cases hx
  | finish => cases hx

lemma waiting_goesOn (next : Next Task) : ∀ q ∈ next.waiting id, q ∈ next.goesOn id := by
  intro q hq
  cases next with
  | block b => exact hq
  | _ => cases hq

lemma goesOn_distinct (next : Next Task) : ((next.goesOn id).map Prod.fst).Nodup := by
  cases next with
  | finish => exact List.nodup_nil
  | _ => exact List.nodup_singleton _

/-- Two processes with one identity are the same. -/
lemma Orderly.unique (order : k.Orderly) {p q : ProcessId × Task} (hp : p ∈ k.processes)
    (hq : q ∈ k.processes) (h : p.1 = q.1) : p = q :=
  List.inj_on_of_nodup_map order.distinct hp hq h

/-- The process that runs is none of the bystanders. -/
lemma Orderly.bystanders {k : Kernel World Task} (order : k.Orderly)
    (runs : k.running = some (id, a)) :
    id < k.spawned ∧ (k.bystanders.map Prod.fst).Nodup ∧
      (∀ p ∈ k.bystanders, p.1 ≠ id ∧ p.1 < k.spawned) := by
  have hdistinct := order.distinct
  rw [processes_eq runs, List.map_cons, List.nodup_cons] at hdistinct
  have hcounted := order.counted
  rw [processes_eq runs] at hcounted
  refine ⟨hcounted (id, a) List.mem_cons_self, hdistinct.2, fun p hp => ⟨?_, ?_⟩⟩
  · intro hid
    have hmem : p.1 ∈ k.bystanders.map Prod.fst := List.mem_map_of_mem hp
    rw [hid] at hmem
    exact hdistinct.1 hmem
  · exact hcounted p (List.mem_cons_of_mem _ hp)

lemma Orderly.bystander_ne (order : k.Orderly) (runs : k.running = some (id, a))
    {p : ProcessId × Task} (hp : p ∈ k.bystanders) : p.1 ≠ id :=
  ((order.bystanders runs).2.2 p hp).1

/-- The process that runs is not blocked. -/
lemma Orderly.not_blocked (order : k.Orderly) (runs : k.running = some (id, a)) :
    ∀ q ∈ k.blocked, q.1 ≠ id :=
  fun _ hq => order.bystander_ne runs (mem_bystanders_of_blocked hq)

/-- A process after its own turn. -/
lemma Turned.mem_processes_self {turn : Turn World Task} (order : k.Orderly)
    (runs : k.running = some (id, a)) (turned : Turned k k' id turn) {b : Task} :
    (id, b) ∈ k'.processes ↔ (id, b) ∈ turn.next.goesOn id := by
  rw [turned.processes.mem_iff, List.mem_append, List.mem_append]
  refine ⟨?_, fun h => .inl (.inl h)⟩
  rintro ((h | h) | h)
  · exact h
  · exact absurd (order.counted _ (running_mem runs)) (Nat.not_lt.mpr (mem_newborn h).1)
  · exact absurd rfl (order.bystander_ne runs h)

/-- A process after the turn of another one. -/
lemma Turned.mem_processes_other {turn : Turn World Task} (runs : k.running = some (id, a))
    (turned : Turned k k' id turn) {other : ProcessId} (elsewhere : other ≠ id)
    (begun : other < k.spawned) {b : Task} :
    (other, b) ∈ k'.processes ↔ (other, b) ∈ k.processes := by
  rw [turned.processes.mem_iff, List.mem_append, List.mem_append, processes_eq runs, List.mem_cons]
  refine ⟨?_, ?_⟩
  · rintro ((h | h) | h)
    · exact absurd (goesOn_ids _ _ h) elsewhere
    · exact absurd begun (Nat.not_lt.mpr (mem_newborn h).1)
    · exact .inr h
  · rintro (h | h)
    · exact absurd (congrArg Prod.fst h) elsewhere
    · exact .inr h

/-- No identity is given twice. -/
lemma Turned.distinct {turn : Turn World Task} (order : k.Orderly)
    (runs : k.running = some (id, a)) (turned : Turned k k' id turn) :
    (k'.processes.map Prod.fst).Nodup ∧ ∀ p ∈ k'.processes, p.1 < k'.spawned := by
  obtain ⟨hid, hnodup, hby⟩ := order.bystanders runs
  have hperm := turned.processes
  constructor
  · rw [(hperm.map Prod.fst).nodup_iff, List.map_append, List.map_append, newborn_ids]
    refine List.Nodup.append (List.Nodup.append (goesOn_distinct _) List.nodup_range' ?_) hnodup ?_
    · intro i hi hborn
      obtain ⟨p, hp, rfl⟩ := List.mem_map.mp hi
      rw [goesOn_ids _ p hp, List.mem_range'_1] at hborn
      exact Nat.not_lt.mpr hborn.1 hid
    · intro i hi hold
      obtain ⟨q, hq, rfl⟩ := List.mem_map.mp hold
      rcases List.mem_append.mp hi with hi | hi
      · obtain ⟨p, hp, hpq⟩ := List.mem_map.mp hi
        rw [goesOn_ids _ p hp] at hpq
        exact (hby q hq).1 hpq.symm
      · rw [List.mem_range'_1] at hi
        exact Nat.not_lt.mpr hi.1 (hby q hq).2
  · intro p hp
    rw [turned.spawned]
    rw [hperm.mem_iff, List.mem_append, List.mem_append] at hp
    rcases hp with (hp | hp) | hp
    · rw [goesOn_ids _ p hp]
      exact Nat.lt_add_right _ hid
    · exact (mem_newborn hp).2.1
    · exact Nat.lt_add_right _ (hby p hp).2

/-! ## Order is kept -/

lemma initial_orderly (world : World) : (initial world : Kernel World Task).Orderly :=
  ⟨⟨List.Pairwise.nil, by simp [initial]⟩, List.nodup_nil, by
    simp [initial, processes, agenda, others, appointed]⟩

lemma mapWorld_orderly (f : World → World) (order : k.Orderly) : (k.mapWorld f).Orderly :=
  ⟨⟨order.sorted, order.later⟩, order.distinct, order.counted⟩

/-- A spawned process runs at once, behind all others that do. -/
lemma spawn_agenda (task : Task) (k : Kernel World Task) :
    (k.spawn task).agenda.Perm (⟨k.spawned, task, k.now⟩ :: k.agenda) := by
  simp only [agenda, others, spawn, appointed, List.map_append, List.map_cons, List.map_nil]
  rw [← Multiset.coe_eq_coe]
  simp only [← Multiset.coe_add, ← Multiset.cons_coe, ← Multiset.singleton_add, Multiset.coe_nil]
  abel

lemma spawn_processes (task : Task) (k : Kernel World Task) :
    (k.spawn task).processes.Perm ((k.spawned, task) :: k.processes) :=
  ((spawn_agenda task k).map fun x : Appointment Task => (x.process, x.task)).append_right
    k.blocked

lemma spawn_orderly (task : Task) (order : k.Orderly) : (k.spawn task).Orderly := by
  have hperm := spawn_processes task k
  refine ⟨⟨order.sorted, order.later⟩, ?_, ?_⟩
  · rw [(hperm.map Prod.fst).nodup_iff, List.map_cons, List.nodup_cons]
    refine ⟨?_, order.distinct⟩
    intro hmem
    obtain ⟨p, hp, hid⟩ := List.mem_map.mp hmem
    have := order.counted p hp
    rw [hid] at this
    exact Nat.lt_irrefl _ this
  · intro p hp
    have hspawned : (k.spawn task).spawned = k.spawned + 1 := rfl
    rw [hspawned]
    rcases List.mem_cons.mp (hperm.mem_iff.mp hp) with rfl | hp
    · exact Nat.lt_succ_self _
    · exact Nat.lt_succ_of_lt (order.counted p hp)

lemma Quiet.orderly (order : k.Orderly) (quiet : Quiet program k k') : k'.Orderly := by
  refine ⟨quiet.lined, ?_, ?_⟩
  · rw [quiet.processes]
    exact order.distinct
  · rw [quiet.processes, quiet.spawned]
    exact order.counted

/-- A step while a process runs is the turn of this process. -/
lemma step_turned (order : k.Orderly) (runs : k.running = some (id, a))
    (h : k.step program stop = .goes k') : Turned k k' id (program.turn k.now id k.world a) := by
  rcases step_cases order h with quiet | ⟨other, b, runs', turned⟩
  · rw [quiet.idle] at runs
    cases runs
  · rw [runs] at runs'
    cases runs'
    exact turned

/-- Every step leaves the kernel in order. -/
theorem step_orderly (order : k.Orderly) (h : k.step program stop = .goes k') : k'.Orderly := by
  rcases step_cases order h with quiet | ⟨id, a, runs, turned⟩
  · exact quiet.orderly order
  · have hids := turned.distinct order runs
    exact ⟨turned.lined, hids.1, hids.2⟩

/-! ## Runs -/

/-- What every step keeps holds when a run ends. -/
theorem run_induction {P Q : Kernel World Task → Prop} (k₀ : Kernel World Task) (start : P k₀)
    (goes : ∀ k k', P k → k.step program stop = .goes k' → P k')
    (ends : ∀ k k', P k → k.step program stop = .ends k' → Q k') {fuel : Nat}
    (h : k₀.run program stop fuel = some k') : Q k' := by
  induction fuel generalizing k₀ with
  | zero => cases h
  | succ fuel ih =>
    unfold run at h
    split at h
    next k'' hstep =>
      injection h with h
      exact h ▸ ends k₀ k'' start hstep
    next k'' hstep => exact ih k'' (goes k₀ k'' start hstep) h

end Kernel

end ServiceSim

import Mathlib.Algebra.BigOperators.Group.Multiset.Basic
import ServiceSim.Proofs.Kernel.Processes

/-!
# Runs that return

A run returns if every turn leaves less to do.  Between two turns the kernel begins a sweep, admits
a process or moves the clock, and it does each of these at most once before the next turn or the end
(`Kernel.phase`).  So what is left to do, and then the phase, get smaller with every step
(`run_returns_of_wellFounded`).  What is left to do can be weighed by numbers, process by process
(`run_returns`).
-/

namespace ServiceSim

variable {World Task : Type} {program : Program World Task} {stop : Option SimTime}

/-- What a turn leaves its process and those that it spawns to do, if a weight says this of every
process. -/
def Turn.work {M : Type*} [AddCommMonoid M] (weight : Task → M) (id : ProcessId)
    (turn : Turn World Task) : M :=
  ((turn.next.goesOn id).map (weight ·.2)).sum + (turn.spawned.map weight).sum

namespace Kernel

variable {k k' : Kernel World Task} {id : ProcessId} {a : Task}

/-- What is left to do, if a weight says this of every process. -/
def work {M : Type*} [AddCommMonoid M] (weight : Task → M) (k : Kernel World Task) : M :=
  (k.processes.map (weight ·.2)).sum

/-- How many steps it takes at most until a process runs. -/
def phase (k : Kernel World Task) : Nat :=
  match k.running with
  | some _ => 0
  | none =>
    match k.ready, k.budget with
    | _ :: _, _ + 1 => 1
    | _ :: _, 0 => 2
    | [], _ => if k.incoming.isEmpty then 3 else 2

/-- When a sweep has begun, the first process is dispatched. -/
lemma beginSweep_phase (idle : k.running = none) (h : k.ready ++ k.incoming ≠ []) :
    k.beginSweep.phase = 1 := by
  cases hready : k.ready ++ k.incoming with
  | nil => exact absurd hready h
  | cons p rest =>
    simp only [beginSweep, phase, idle, hready, alive, List.length_cons]
    split
    next => rfl
    next heq => omega
    next heq => cases heq

/-- A step without a turn brings the next turn nearer. -/
lemma step_phase (idle : k.running = none)
    (h : k.step program stop = .goes k') : k'.phase < k.phase := by
  rw [step, idle] at h
  dsimp only at h
  split at h
  next p rest budget ready hbudget =>
    injection h with h
    subst h
    simp only [phase, idle, ready, hbudget]
    omega
  next ready =>
    split_ifs at h with incoming
    · have hphase : k.phase = 3 := by simp only [phase, idle, ready, incoming, if_true]
      rw [advance] at h
      split at h
      · cases h
      next first rest parked =>
        -- Those that are due first are ready when the clock has moved.
        have hdue : (k.advanceTo program first.due).phase = 2 := by
          have hle : first.due ≤ k.now.later first.due := SimTime.le_later_right _ _
          simp only [phase, advanceTo, idle, ready, parked, List.takeWhile_cons, hle, decide_true,
            if_true, List.map_cons, List.nil_append]
        have hgoes : k' = k.advanceTo program first.due := by
          cases stop with
          | none =>
            injection h with h
            exact h.symm
          | some s =>
            dsimp only at h
            split_ifs at h
            injection h with h
            exact h.symm
        rw [hgoes, hdue, hphase]
        omega
    · injection h with h
      have hne : k.ready ++ k.incoming ≠ [] := by
        rw [ready, List.nil_append]
        intro hnil
        rw [hnil] at incoming
        exact incoming rfl
      rw [← h, beginSweep_phase idle hne]
      simp only [phase, idle, ready, if_neg incoming]
      omega
  next p rest ready budget =>
    injection h with h
    rw [← h, beginSweep_phase idle (by rw [ready]; simp)]
    simp only [phase, idle, ready, budget]
    omega

section Work

variable {M : Type*} [AddCommMonoid M] (weight : Task → M)

lemma Quiet.work (quiet : Quiet program k k') : k'.work weight = k.work weight := by
  rw [Kernel.work, quiet.processes]
  rfl

/-- The work of the process that runs and that of all others. -/
lemma work_eq (runs : k.running = some (id, a)) :
    k.work weight = weight a + (k.bystanders.map (weight ·.2)).sum := by
  rw [work, processes_eq runs, List.map_cons, List.sum_cons]

/-- A turn changes the work by what its process and those that it spawns have to do. -/
lemma Turned.work {turn : Turn World Task} (turned : Turned k k' id turn) :
    k'.work weight = turn.work weight id + (k.bystanders.map (weight ·.2)).sum := by
  have hperm := (turned.processes.map fun p => weight p.2).sum_eq
  have hborn : (newborn k.spawned turn.spawned).map (weight ·.2) = turn.spawned.map weight := by
    conv_rhs => rw [← newborn_tasks k.spawned turn.spawned]
    rw [List.map_map]
    rfl
  rw [List.map_append, List.map_append, List.sum_append, List.sum_append, hborn] at hperm
  exact hperm

end Work

/-- **A run returns** if every turn lowers a measure that nothing else changes. -/
theorem run_returns_of_wellFounded {α : Type*} {r : α → α → Prop} (wf : WellFounded r)
    (measure : Kernel World Task → α) {P : Kernel World Task → Prop}
    (order : ∀ k, P k → k.Orderly)
    (goes : ∀ k k', P k → k.step program stop = .goes k' → P k')
    (rests : ∀ k k', P k → Quiet program k k' → measure k' = measure k)
    (lowers : ∀ k k' id a, P k → k.running = some (id, a) →
      Turned k k' id (program.turn k.now id k.world a) → r (measure k') (measure k))
    (start : P k) : ∃ fuel k', k.run program stop fuel = some k' := by
  have hwf : WellFounded (Prod.Lex r (· < · : Nat → Nat → Prop)) :=
    WellFounded.prod_lex wf wellFounded_lt
  induction hmeasure : (measure k, k.phase) using hwf.induction generalizing k with
  | _ m ih =>
    cases hstep : k.step program stop with
    | ends k' => exact ⟨1, k', by rw [run, hstep]⟩
    | goes k' =>
      have hless : Prod.Lex r (· < ·) (measure k', k'.phase) m := by
        rw [← hmeasure]
        rcases step_cases (order k start) hstep with quiet | ⟨id, a, runs, turned⟩
        · rw [rests k k' start quiet]
          exact .right _ (step_phase quiet.idle hstep)
        · exact .left _ _ (lowers k k' id a start runs turned)
      obtain ⟨fuel, k'', hrun⟩ := ih _ hless (goes k k' start hstep) rfl
      exact ⟨fuel + 1, k'', by rw [run, hstep]; exact hrun⟩

/-- **A run returns** if every turn leaves less to do, by a weight of the processes. -/
theorem run_returns {P : Kernel World Task → Prop} (weight : Task → Nat)
    (order : ∀ k, P k → k.Orderly)
    (goes : ∀ k k', P k → k.step program stop = .goes k' → P k')
    (lighter : ∀ k id a, P k → k.running = some (id, a) →
      (program.turn k.now id k.world a).work weight id < weight a)
    (start : P k) : ∃ fuel k', k.run program stop fuel = some k' := by
  refine run_returns_of_wellFounded wellFounded_lt (work weight) order goes
    (fun _ _ _ quiet => quiet.work weight) (fun k k' id a hk runs turned => ?_) start
  rw [turned.work, work_eq weight runs]
  exact Nat.add_lt_add_right (lighter k id a hk runs) _

end Kernel

end ServiceSim

import ServiceSim.Proofs.Interpreter.Effects
import ServiceSim.Proofs.Interpreter.Tally

/-!
# A kernel whose calls are counted

Whatever happens to a kernel, the log of its calls agrees with its recorder (`Kernel.Measured`).
For every step of a process this follows from what the step does about calls: it begins one, fails to
begin one, returns from one, or leaves them alone.
-/

namespace ServiceSim

open Activity

namespace Kernel

/-- A process with its calls under way. -/
def lineOf (p : ProcessId × Activity) : Line := (p.1, p.2.calls)

/-- The log of calls after a step.  Only the process that runs begins a call or returns from one. -/
def recordCalls (d : Deployment) (k : Kernel Environment Activity) (l : CallLog) : CallLog :=
  match k.running with
  | none => l
  | some (id, a) =>
    match a.callDeed (a.advance d k.now id k.world) with
    | none => l
    | some (.begins site pushed) => l.begins ⟨site, id, pushed, k.now⟩
    | some (.returns pushed) => l.returns id pushed k.now

/-- What all processes lead into is hosted by their contexts, and the log of calls agrees with the
recorder. -/
structure Measured (d : Deployment) (k : Kernel Environment Activity) (l : CallLog) : Prop where
  order : k.Orderly
  placed : ∀ p ∈ k.processes, p.2.IsPlaced d
  tally : Tally d k.world.recorder l (k.processes.map lineOf) k.spawned k.world.frames k.now

variable {d : Deployment} {stop : Option SimTime} {k k' : Kernel Environment Activity}
  {l l' : CallLog} {id : ProcessId} {a : Activity}

/-! ## Turns -/

lemma newborn_lines (first : Nat) {tasks : List Activity} (hcalls : ∀ b ∈ tasks, b.calls = []) :
    (∀ p ∈ (newborn first tasks).map lineOf,
        first ≤ p.1 ∧ p.1 < first + tasks.length ∧ p.2 = []) ∧
      (((newborn first tasks).map lineOf).map Prod.fst).Nodup := by
  constructor
  · intro p hp
    obtain ⟨q, hq, rfl⟩ := List.mem_map.mp hp
    obtain ⟨hfirst, hlast, hmem⟩ := mem_newborn hq
    exact ⟨hfirst, hlast, hcalls q.2 hmem⟩
  · have hids : ((newborn first tasks).map lineOf).map Prod.fst =
        (newborn first tasks).map Prod.fst := by
      rw [List.map_map]
      rfl
    rw [hids, newborn_ids]
    exact List.nodup_range'

/-- A turn keeps a tally that tells what it has done about calls. -/
lemma Turned.measured {turn : Turn Environment Activity} (h : Measured d k l)
    (runs : k.running = some (id, a)) (turned : Turned k k' id turn) {lines : List Line}
    {frames : Nat} (tally : Tally d turn.world.recorder l' lines k.spawned frames k.now)
    (hframes : frames ≤ turn.world.frames)
    (hlines : ((turn.next.goesOn id).map lineOf ++ k.bystanders.map lineOf).Sublist lines)
    (goesOn : ∀ p ∈ turn.next.goesOn id, p.2.IsPlaced d)
    (spawned : ∀ b ∈ turn.spawned, b.calls = [] ∧ b.IsPlaced d) : Measured d k' l' := by
  have hdistinct := turned.distinct h.order runs
  refine ⟨⟨turned.lined, hdistinct.1, hdistinct.2⟩, fun p hp => ?_, ?_⟩
  · rcases List.mem_append.mp (turned.processes.mem_iff.mp hp) with hp | hp
    · rcases List.mem_append.mp hp with hp | hp
      · exact goesOn p hp
      · exact (spawned p.2 (mem_newborn hp).2.2).2
    · exact h.placed p (mem_processes_of_bystanders runs hp)
  · have hperm : (k'.processes.map lineOf).Perm
        (((turn.next.goesOn id).map lineOf ++ k.bystanders.map lineOf) ++
          (newborn k.spawned turn.spawned).map lineOf) := by
      refine (turned.processes.map lineOf).trans ?_
      rw [List.map_append, List.map_append, List.append_assoc, List.append_assoc]
      exact List.perm_append_comm.append_left _
    obtain ⟨hborn, hids⟩ := newborn_lines k.spawned fun b hb => (spawned b hb).1
    rw [turned.world, turned.spawned, turned.now]
    exact tally.passes hperm hlines hborn hids (Nat.le_add_right _ _) hframes (le_refl _)

/-- Reporting an end measures nothing. -/
lemma report_unmeasured (a : Activity) (env : Environment) (c : Completion) :
    env.Unmeasured (a.report env c).world := by
  have hrefl := Environment.Unmeasured.refl env
  unfold report
  cases a.role with
  | request number => exact ⟨rfl, Nat.le_refl _⟩
  | asynchronous =>
    cases c.result with
    | ok result => exact hrefl
    | error e => exact hrefl.note _
  | synchronous owner => exact hrefl.setBarrier _ _

/-- The turn of a process that has ended. -/
lemma Turned.measured_ends {env : Environment} {c : Completion} (h : Measured d k l)
    (runs : k.running = some (id, a)) (turned : Turned k k' id (a.report env c))
    (tally : Tally d env.recorder l (k.bystanders.map lineOf) k.spawned env.frames k.now) :
    Measured d k' l := by
  have hreport := report_unmeasured a env c
  rw [← hreport.recorder] at tally
  refine turned.measured h runs tally hreport.frames ?_ ?_ ?_
  · rw [report_ends.2]
    exact List.Sublist.refl _
  · rw [report_ends.2]
    exact fun p hp => by cases hp
  · rw [report_ends.1]
    exact fun b hb => by cases hb

/-- The turn of a process that goes on at once. -/
lemma Turned.measured_proceeds {env : Environment} {b : Activity} {frames : Nat}
    (h : Measured d k l) (runs : k.running = some (id, a))
    (turned : Turned k k' id ⟨env, [], [], .proceed b⟩)
    (tally : Tally d env.recorder l' ((id, b.calls) :: k.bystanders.map lineOf) k.spawned frames
      k.now) (hframes : frames ≤ env.frames) (placed : b.IsPlaced d) : Measured d k' l' := by
  refine turned.measured h runs tally hframes (List.Sublist.refl _) (fun p hp => ?_)
    fun b hb => absurd hb List.not_mem_nil
  rw [List.mem_singleton.mp hp]
  exact placed

/-- A turn that leaves the calls alone. -/
lemma Turned.measured_calm {turn : Turn Environment Activity} (h : Measured d k l)
    (runs : k.running = some (id, a)) (turned : Turned k k' id turn)
    (calm : IsCalm d id k.world a.calls (.goes turn)) : Measured d k' l := by
  obtain ⟨hsteady, hgoes, hspawned⟩ := calm
  have htally := h.tally
  rw [processes_eq runs, List.map_cons, ← hsteady.recorder] at htally
  refine turned.measured h runs htally hsteady.frames ?_ (fun p hp => (hgoes p hp).2) hspawned
  have hsame : ∀ b : Activity, b.calls = a.calls → (((id, b) :: k.bystanders).map lineOf).Sublist
      (lineOf (id, a) :: k.bystanders.map lineOf) := by
    intro b hb
    rw [List.map_cons, lineOf, lineOf, hb]
  cases hnext : turn.next with
  | finish => exact List.sublist_cons_self _ _
  | proceed b => exact hsame b (hgoes (id, b) (hnext ▸ List.mem_cons_self)).1
  | hold delay b => exact hsame b (hgoes (id, b) (hnext ▸ List.mem_cons_self)).1
  | block b => exact hsame b (hgoes (id, b) (hnext ▸ List.mem_cons_self)).1

/-- **A turn keeps the count**, whatever it does about calls. -/
lemma Turned.counted (h : Measured d k l) (identify : d.LabelsIdentify)
    (runs : k.running = some (id, a))
    (turned : Turned k k' id (a.turn d k.now id k.world)) :
    Measured d k' (k.recordCalls d l) := by
  have heffect : CallEffect d k.now id k.world a (a.advance d k.now id k.world) :=
    advance_calls (h.placed _ (running_mem runs))
  have htally := h.tally
  rw [processes_eq runs, List.map_cons] at htally
  simp only [recordCalls, runs]
  unfold turn at turned
  generalize a.advance d k.now id k.world = progress at heffect turned ⊢
  cases heffect with
  | calm hdeed hcalm =>
    rw [hdeed]
    cases progress with
    | ends env c =>
      have hsteady : k.world.Unmeasured env := hcalm
      rw [← hsteady.recorder] at htally
      exact turned.measured_ends h runs
        (htally.thins (List.sublist_cons_self _ _) hsteady.frames (le_refl _))
    | goes turn => exact turned.measured_calm h runs hcalm
  | begins hsite hrecorder hframes hcalls hplaced hdeed =>
    rw [hdeed]
    obtain ⟨hregistered, hknown⟩ := htally.registered identify hsite
    have hbegun := hregistered.begins hsite hknown
    rw [← hrecorder, ← hcalls] at hbegun
    exact turned.measured_proceeds h runs hbegun hframes hplaced
  | @fails site _ _ hsite hrecorder hframes =>
    have hfailed := (htally.registered identify hsite).1.fails site
    rw [← hrecorder] at hfailed
    exact turned.measured_ends h runs (hfailed.thins (List.Sublist.refl _) hframes (le_refl _))
  | returns hcalls hrecorder hframes hplaced hdeed =>
    rw [hdeed]
    rw [lineOf, hcalls] at htally
    have hreturned := htally.returns
    rw [← hrecorder] at hreturned
    exact turned.measured_proceeds h runs hreturned hframes hplaced

/-! ## Steps and what happens between them -/

/-- A step in which no process runs. -/
lemma Quiet.measured (h : Measured d k l) (quiet : Quiet (program d) k k') : Measured d k' l := by
  have hsteady : k.world.Unmeasured k'.world := by
    rcases quiet.world with hworld | ⟨time, wakeups, hworld⟩
    · rw [hworld]
      exact .refl _
    · rw [hworld]
      exact (Environment.Unmeasured.refl k.world).note _
  refine ⟨quiet.orderly h.order, ?_, ?_⟩
  · rw [quiet.processes]
    exact h.placed
  · rw [quiet.processes, quiet.spawned, hsteady.recorder]
    exact h.tally.thins (List.Sublist.refl _) hsteady.frames quiet.now

/-- **Every step keeps the count.** -/
theorem step_measured (h : Measured d k l) (identify : d.LabelsIdentify)
    (hstep : k.step (program d) stop = .goes k') : Measured d k' (k.recordCalls d l) := by
  rcases step_cases h.order hstep with quiet | ⟨id, a, runs, turned⟩
  · rw [recordCalls, quiet.idle]
    exact quiet.measured h
  · exact turned.counted h identify runs

lemma initial_measured (d : Deployment) (source : Source) (resources : Resources) :
    Measured d (initial (Environment.initial source resources)) .empty :=
  ⟨initial_orderly _, fun _ hp => absurd hp List.not_mem_nil, Tally.initial d 0 SimTime.zero⟩

/-- Something changes that is not measured. -/
lemma mapWorld_measured (h : Measured d k l) {f : Environment → Environment}
    (steady : k.world.Unmeasured (f k.world)) : Measured d (k.mapWorld f) l := by
  refine ⟨mapWorld_orderly f h.order, h.placed, ?_⟩
  have htally := h.tally
  rw [← steady.recorder] at htally
  exact htally.thins (List.Sublist.refl _) steady.frames (le_refl _)

/-- A process enters that has not called yet. -/
lemma spawn_measured (h : Measured d k l) (hcalls : a.calls = []) (hplaced : a.IsPlaced d) :
    Measured d (k.spawn a) l := by
  have hperm := spawn_processes a k
  refine ⟨spawn_orderly a h.order, fun p hp => ?_, ?_⟩
  · rcases List.mem_cons.mp (hperm.mem_iff.mp hp) with rfl | hp
    · exact hplaced
    · exact h.placed p hp
  · have hlines : ((k.spawn a).processes.map lineOf).Perm
        (k.processes.map lineOf ++ [lineOf (k.spawned, a)]) :=
      (hperm.map lineOf).trans (List.perm_append_singleton _ _).symm
    refine h.tally.passes hlines (List.Sublist.refl _) ?_ (List.nodup_singleton _)
      (Nat.le_succ _) (le_refl _) (le_refl _)
    intro p hp
    rw [List.mem_singleton.mp hp]
    exact ⟨le_refl _, Nat.lt_succ_self _, hcalls⟩

end Kernel

end ServiceSim
